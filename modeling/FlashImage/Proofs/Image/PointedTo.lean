import FlashImage.Algorithms.Standard
import FlashImage.Proofs.Section.Dispatch

/-!
# Sections found through pointers

A pointer says where a structure starts but not where it ends, so the length of a boot loader and of a
table of digests is taken from a dword of the structure itself. Later the decoder compares that dword with
the length of the contents, by a formula of its own. Both agree: the contents of a section that was cut to
the announced length are as long as the decoder expects, the CRC dword being what makes the difference
(`Boot2.exists_decode_of_sectionLength?`, `HashesTable.decode_of_sectionLength?`).

No entry stands between a pointer and its section, so nothing denies the CRC dword either, and a boot
loader in an image that is not encrypted is always shown as one (`Image.exists_boot2`).
-/

namespace FlashImage

/-! ### Lengths that are read from a dword -/

/-- **A boot loader is as long as its announcement says**, so it is always read, and written again as the
bytes it was read from. -/
theorem Boot2.exists_decode_of_sectionLength? {data : Bytes} {l : Nat}
    (h : sectionLength? data = some l) (hfit : l ≤ data.length) :
    ∃ b, decode (data.take (l - 4)) = .ok b ∧ b.code.length = b.sizeDwords.toNat * 4 ∧
      b.encode = data.take (l - 4) := by
  obtain ⟨-, hl⟩ := Bytes.map_readU32_eq_some_iff.1 h
  -- Four dwords around the code were announced, of which the decoder sees three.
  have hlength : (data.take (l - 4)).length = ((data.u32At 4).toNat + 3) * 4 := by
    rw [List.length_take]
    omega
  have hdword : Bytes.u32At (data.take (l - 4)) 4 = data.u32At 4 := Bytes.u32At_take (by omega)
  obtain ⟨b, hb⟩ : ∃ b, decode (data.take (l - 4)) = .ok b := by
    rw [decode, Bytes.readU32_of_le (by omega), Bytes.readU32_of_le (by omega), hdword]
    simp only [mapError_ok, ok_bind, if_pos hlength]
    exact ⟨_, rfl⟩
  exact ⟨b, hb, (wellFormed_of_decode hb).code.symm, encode_of_decode hb⟩

/-- A table with a header and the right length is read if it has room for its entries. -/
theorem HashesTable.decode_of_length {d : Bytes} (hheader : headerSize ≤ d.length)
    (hlength : d.length = (d.u32At 8).toNat * 4) :
    (storageOffset (entryCount (d.u32At 4)) ≤ d.length → ∃ t, decode d = .ok t) ∧
    (d.length < storageOffset (entryCount (d.u32At 4)) →
      decode d = .error (.tooShort (storageOffset (entryCount (d.u32At 4))) d.length)) := by
  rw [decode, needBytes_of_le hheader, ok_bind, if_pos hlength]
  dsimp only
  constructor
  · intro hroom
    rw [needBytes_of_le hroom]
    exact ⟨_, rfl⟩
  · intro hshort
    rw [needBytes_of_lt hshort]
    rfl

/-- **A table of digests is as long as its announcement says**, so it is read if it has room for its
entries, and is found too short otherwise. -/
theorem HashesTable.decode_of_sectionLength? {data : Bytes} {l : Nat}
    (h : sectionLength? data = some l) (hfit : l ≤ data.length) :
    (storageOffset (entryCount (data.u32At 4)) ≤ l - 4 →
      ∃ t, decode (data.take (l - 4)) = .ok t ∧ t.encode = data.take (l - 4)) ∧
    (l - 4 < storageOffset (entryCount (data.u32At 4)) →
      ∃ need, l - 4 < need ∧ decode (data.take (l - 4)) = .error (.tooShort need (l - 4))) := by
  obtain ⟨-, hl⟩ := Bytes.map_readU32_eq_some_iff.1 h
  have hlength : (data.take (l - 4)).length = l - 4 := by
    rw [List.length_take]
    omega
  by_cases hheader : headerSize ≤ l - 4
  · -- The dwords of the header are the same in the contents as in what the pointer leads to.
    have hcount : Bytes.u32At (data.take (l - 4)) 4 = data.u32At 4 :=
      Bytes.u32At_take (Nat.le_trans (by decide) hheader)
    have hdwords : Bytes.u32At (data.take (l - 4)) 8 = data.u32At 8 :=
      Bytes.u32At_take (Nat.le_trans (by decide) hheader)
    obtain ⟨hread, hrefused⟩ := decode_of_length (d := data.take (l - 4)) (by omega)
      (by rw [hdwords]; omega)
    rw [hcount, hlength] at hread hrefused
    constructor
    · intro hroom
      obtain ⟨t, ht⟩ := hread hroom
      exact ⟨t, ht, encode_of_decode ht⟩
    · intro hshort
      exact ⟨_, hshort, hrefused hshort⟩
  · -- Without a header there is no room for entries either.
    have hfirst : headerSize ≤ storageOffset (entryCount (data.u32At 4)) := Nat.le_add_right _ _
    constructor
    · intro hroom
      omega
    · intro hshort
      refine ⟨headerSize, by omega, ?_⟩
      rw [decode, needBytes_of_lt (by omega), hlength]
      rfl

/-! ### Boot loaders in an image -/

namespace Section

variable {s : Section}

theorem type_of_boot2 (h : s.code = SectionCode.boot2) :
    s.type.family = .boot2 ∧ s.type.place = .trailer := by
  rw [type, h]
  exact ⟨rfl, rfl⟩

/-- The CRC dword is split off from a boot loader without an entry. -/
theorem payload_of_boot2 (hcode : s.code = SectionCode.boot2) (hentry : s.entry = none)
    (hplain : s.encryptedImage = false) (hroom : trailerSize ≤ s.data.length) :
    s.payload = s.data.take (s.data.length - trailerSize) := by
  obtain ⟨hfamily, htype⟩ := type_of_boot2 hcode
  have hfits : s.misfits = false := by simp [misfits, hfamily]
  have hplace : s.place = .trailer :=
    place_eq_trailer_iff.2 ⟨by rw [hentry, hfits]; rfl, htype, hroom⟩
  rw [payload, if_pos (stripped_of_trailer hplace hplain)]

/-- A boot loader that is read from the contents of a section is what is shown. -/
theorem shown_of_boot2 [Algorithms] (hcode : s.code = SectionCode.boot2) (hplain : s.encryptedImage = false)
    {b : Boot2} (h : Boot2.decode s.payload = .ok b) : s.projection = .boot2 b ∧ s.findings = [] := by
  have hfamily := (type_of_boot2 hcode).1
  have hfits : s.misfits = false := by simp [misfits, hfamily]
  have hdecode : Projection.decode s.type.family s.payload = .ok (.boot2 b) := by
    rw [hfamily]
    exact congrArg (Except.map _) h
  -- The code is kept beside what is shown, so nothing has to be written back.
  have hproject : s.project = .ok (.boot2 b) := project_of_decode hfits hdecode fun hkeeps => by cases hkeeps
  exact shown_of_ok (by rw [hfamily]; decide) (by simp [encrypted, hplain]) hproject

end Section

namespace Image

variable {i : Image}

/-- Only a pointer announces a boot loader, with the length that stands in it. -/
theorem Announces.boot2_of_code {p : Placement} (hp : i.Announces p) (hcode : p.code = SectionCode.boot2) :
    p.length = Boot2.sectionLength? (i.data.drop p.offset) ∧ p.entry = none := by
  cases hp with
  | pointerArray => cases hcode
  | table t ht =>
    have hne : ∀ k, tocCode k ≠ SectionCode.boot2 := by
      intro k
      cases k <;> decide
    exact absurd hcode (hne t.toc.kind)
  | pointer role code length? hrole index address =>
    simp only [pointedTo, List.mem_cons, Prod.mk.injEq, List.not_mem_nil, or_false] at hrole
    obtain ⟨-, -, rfl⟩ | ⟨-, rfl, -⟩ | ⟨-, rfl, -⟩ := hrole
    · exact ⟨rfl, rfl⟩
    · cases hcode
    · cases hcode
  | entry t ht e index he =>
    -- An entry has a code of one byte, and that of a boot loader has two.
    have hlt := e.code_lt
    rw [show e.code = _ from hcode] at hlt
    exact absurd hlt (by decide)

/-- A boot loader in an image has no entry, and is cut to the length that stands in it. -/
theorem of_mem_boot2 {s : Section} (hs : s ∈ i.sections) (hcode : s.code = SectionCode.boot2) :
    s.entry = none ∧ s.encryptedImage = i.encrypted ∧
      ∃ l, Boot2.sectionLength? (i.data.drop s.offset) = some l ∧ l ≤ (i.data.drop s.offset).length ∧
        s.data = (i.data.drop s.offset).take l := by
  obtain ⟨p, hp, hsection⟩ := exists_placement hs
  obtain ⟨l, hlength, -, hfit, rfl⟩ := Placement.exists_of_section? hsection
  obtain ⟨hl, hentry⟩ := (announces_of_mem_placements hp).boot2_of_code hcode
  refine ⟨hentry, rfl, l, hl.symm.trans hlength, ?_, rfl⟩
  show l ≤ (i.data.drop p.offset).length
  rw [List.length_drop]
  omega

/-- **A boot loader in an image that is not encrypted is shown as one**, and nothing is wrong with it but
its CRC perhaps. -/
theorem exists_boot2 [Algorithms] (hplain : i.encrypted = false) {s : Section} (hs : s ∈ i.sections)
    (hcode : s.code = SectionCode.boot2) :
    ∃ b, s.projection = .boot2 b ∧ b.encode = s.payload ∧ s.findings = [] := by
  obtain ⟨hentry, hencrypted, l, hl, hfit, hdata⟩ := of_mem_boot2 hs hcode
  rw [hplain] at hencrypted
  have hsize : s.data.length = l := by
    rw [hdata, List.length_take]
    omega
  have hroom : Section.trailerSize ≤ s.data.length := by
    obtain ⟨-, hdwords⟩ := Bytes.map_readU32_eq_some_iff.1 hl
    unfold Section.trailerSize
    omega
  -- The contents are all but the last dword of what the pointer leads to.
  have hpayload : s.payload = (i.data.drop s.offset).take (l - 4) :=
    calc s.payload = s.data.take (s.data.length - 4) :=
          Section.payload_of_boot2 hcode hentry hencrypted hroom
      _ = ((i.data.drop s.offset).take l).take (l - 4) := by rw [hsize, hdata]
      _ = (i.data.drop s.offset).take (l - 4) := by
          rw [List.take_take, Nat.min_eq_left (Nat.sub_le l 4)]
  obtain ⟨b, hdecode, -, hencode⟩ := Boot2.exists_decode_of_sectionLength? hl hfit
  rw [← hpayload] at hdecode hencode
  obtain ⟨hprojection, hfindings⟩ := Section.shown_of_boot2 hcode hencrypted hdecode
  exact ⟨b, hprojection, hencode, hfindings⟩

/-- **Announced lengths are the ones that the decoders expect.** A length is announced wherever there is a
dword to read it from. A boot loader is then always read from what is cut off for it, and a table of
digests is, unless it has too little room for the entries that it counts. Hence a boot loader in an image
that is not encrypted is never kept as bytes only. -/
theorem pointed_decoded [Algorithms] :
    (∀ data l, Boot2.sectionLength? data = some l ↔
      4 + 4 ≤ data.length ∧ l = ((data.u32At 4).toNat + 4) * 4) ∧
    (∀ data l, HashesTable.sectionLength? data = some l ↔
      8 + 4 ≤ data.length ∧ l = ((data.u32At 8).toNat + 1) * 4) ∧
    (∀ data l, Boot2.sectionLength? data = some l → l ≤ data.length →
      ∃ b, Boot2.decode (data.take (l - 4)) = .ok b ∧ b.code.length = b.sizeDwords.toNat * 4 ∧
        b.encode = data.take (l - 4)) ∧
    (∀ data l, HashesTable.sectionLength? data = some l → l ≤ data.length →
      (HashesTable.storageOffset (HashesTable.entryCount (data.u32At 4)) ≤ l - 4 →
        ∃ t, HashesTable.decode (data.take (l - 4)) = .ok t ∧ t.encode = data.take (l - 4)) ∧
      (l - 4 < HashesTable.storageOffset (HashesTable.entryCount (data.u32At 4)) →
        ∃ need, l - 4 < need ∧
          HashesTable.decode (data.take (l - 4)) = .error (.tooShort need (l - 4)))) ∧
    ∀ data i, parse data = .ok i → i.encrypted = false → ∀ s ∈ i.sections,
      s.code = SectionCode.boot2 → ∃ b, s.projection = .boot2 b ∧ b.encode = s.payload ∧
        s.findings = [] := by
  refine ⟨fun _ _ => Bytes.map_readU32_eq_some_iff, fun _ _ => Bytes.map_readU32_eq_some_iff, ?_, ?_, ?_⟩
  · intro data l h hfit
    exact Boot2.exists_decode_of_sectionLength? h hfit
  · intro data l h hfit
    exact HashesTable.decode_of_sectionLength? h hfit
  · intro data i _ hplain s hs hcode
    exact exists_boot2 hplain hs hcode

/-- **A small image with a boot loader**: an empty table of contents, and behind it a boot loader of one
dword. -/
def bootImage : Bytes :=
  Magic.pattern ++ List.replicate 16 0
    ++ Pointers.encode ⟨[.absent, ⟨216, 0, 0⟩, ⟨152, 0, 0⟩] ++ List.replicate 13 .absent⟩
    ++ Bytes.ofDwords [TocKind.itoc.signature, 0, 0, 0, 0, 0, 0, 0]
    ++ List.replicate 32 0xff ++ Bytes.ofDwords [7, 1, 0x12345678, 9, 0]

/-- The boot loader is one of its sections. -/
theorem exists_boot2_mem_bootImage : ∃ i, parse bootImage = .ok i ∧ i.encrypted = false ∧
    ∃ s ∈ i.sections, s.code = SectionCode.boot2 := by
  have hfound : (parse bootImage).toOption.any (fun i => !i.encrypted && i.placements.any fun p =>
      p.code = SectionCode.boot2 && (p.section? i.data i.encrypted).isSome) = true := by
    decide +kernel
  cases hparse : parse bootImage with
  | error e =>
    rw [hparse] at hfound
    cases hfound
  | ok i =>
    rw [hparse, Except.toOption, Option.any_some, Bool.and_eq_true, Bool.not_eq_true', List.any_eq_true]
      at hfound
    obtain ⟨hplain, p, hp, hannounced⟩ := hfound
    rw [Bool.and_eq_true, decide_eq_true_eq, Option.isSome_iff_exists] at hannounced
    obtain ⟨hcode, s, hs⟩ := hannounced
    obtain ⟨l, -, -, -, rfl⟩ := Placement.exists_of_section? hs
    exact ⟨i, rfl, hplain, _, mem_sections_of_section? hp hs, hcode⟩

/-- The shortest boot loader, a table without entries, one that counts more entries than it has room for,
and the boot loader of the small image. -/
theorem pointed_decoded_bootImage :
    (∃ b, Boot2.decode ((Bytes.ofDwords [7, 0, 9, 0]).take (16 - 4)) = .ok b ∧
      b.code.length = b.sizeDwords.toNat * 4 ∧ b.encode = (Bytes.ofDwords [7, 0, 9, 0]).take (16 - 4)) ∧
    (∃ t, HashesTable.decode ((Bytes.ofDwords [1, 0, 4, 0, 0]).take (20 - 4)) = .ok t ∧
      t.encode = (Bytes.ofDwords [1, 0, 4, 0, 0]).take (20 - 4)) ∧
    (∃ need, 20 - 4 < need ∧ HashesTable.decode ((Bytes.ofDwords [1, 1, 4, 0, 0]).take (20 - 4))
      = .error (.tooShort need (20 - 4))) ∧
    ∃ i, parse bootImage = .ok i ∧ i.encrypted = false ∧ ∃ s ∈ i.sections, s.code = SectionCode.boot2 ∧
      ∃ b, s.projection = .boot2 b ∧ b.encode = s.payload ∧ s.findings = [] := by
  obtain ⟨-, -, hboot, hhashes, himages⟩ := @pointed_decoded Algorithms.standard
  obtain ⟨i, hi, hplain, s, hs, hcode⟩ := exists_boot2_mem_bootImage
  have hempty := hhashes (Bytes.ofDwords [1, 0, 4, 0, 0]) 20 (by decide) (by decide)
  have hfull := hhashes (Bytes.ofDwords [1, 1, 4, 0, 0]) 20 (by decide) (by decide)
  exact ⟨hboot _ 16 (by decide) (by decide), hempty.1 (by decide), hfull.2 (by decide), i, hi, hplain, s, hs,
    hcode, himages bootImage i hi hplain s hs hcode⟩

end Image

end FlashImage
