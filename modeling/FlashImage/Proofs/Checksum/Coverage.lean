import FlashImage.Proofs.Checksum.Burst
import FlashImage.Proofs.Section.Status
import FlashImage.Proofs.Toc.RoundTrip

/-!
# What the checks notice

A valid record or section that is damaged by a burst is not valid any more, be it that the burst lies in
what the CRC covers or in the CRC that is stored (`corruption_detected`). What the CRC of a burst does is
known (`Crc.software_ne`, `Crc.hardware_ne`); what is left is that each check compares a word of the stored
form with the CRC of the bytes in front of it, so that it looks at every covered bit and at each of them
once.

That is one statement about a stored form (`Corrupts.isInvalid_check`), and there is one lemma for each kind
of record and section that its check is of that shape. The two that take work are the header of a table,
whose CRC is computed over all of it with the CRC itself cleared, and a section with its CRC in the table
entry, whose stored form is not a part of the section.
-/

namespace FlashImage

/-! ### A stored form with its CRC -/

/-- **Damage to a stored form** whose first `covered` bytes have their CRC at offset `stored`: a burst that
lies in the covered bytes or in the sixteen bits of the CRC. -/
structure Corrupts (covered stored : Nat) (a b : Bytes) : Prop where
  burst : Burst a b
  place : DifferWithin 0 (8 * covered) a b ∨ DifferWithin (8 * stored) 16 a b

namespace DifferWithin

variable {first count : Nat} {a b : Bytes}

/-- A word in front of the window is the same in both strings. -/
theorem u16At_eq_of_le (h : DifferWithin first count a b) {offset : Nat}
    (hoffset : 8 * (offset + 2) ≤ first) : a.u16At offset = b.u16At offset := by
  rw [Bytes.u16At, Bytes.u16At, ← Bytes.slice_take (Nat.le_refl (offset + 2)), h.take_eq hoffset,
    Bytes.slice_take (Nat.le_refl (offset + 2))]

/-- A word behind the window is the same in both strings. -/
theorem u16At_eq_of_ge (h : DifferWithin first count a b) {offset : Nat}
    (hoffset : first + count ≤ 8 * offset) : a.u16At offset = b.u16At offset := by
  rw [Bytes.u16At, Bytes.u16At, Bytes.slice, Bytes.slice, h.drop_eq hoffset]

/-- A word that is the window differs, if anything does. -/
theorem u16At_ne {offset : Nat} (h : DifferWithin (8 * offset) 16 a b) (hne : a ≠ b)
    (hroom : offset + 2 ≤ a.length) : a.u16At offset ≠ b.u16At offset := by
  intro hword
  have hslice : a.slice offset 2 = b.slice offset 2 := by
    rw [← Bytes.u16_u16At hroom, hword, Bytes.u16_u16At (h.length_eq ▸ hroom)]
  have hsplit (bs : Bytes) : bs = bs.take offset ++ (bs.slice offset 2 ++ bs.drop (offset + 2)) := by
    rw [Bytes.slice_append_drop, List.take_append_drop]
  apply hne
  rw [hsplit a, hsplit b, hslice, h.take_eq (Nat.le_refl _), h.drop_eq (by omega)]

end DifferWithin

/-- **Damage is noticed** by a check that compares the stored CRC with the one of the covered bytes. -/
theorem Corrupts.isInvalid_check {crc : Bytes → UInt16} {covered stored : Nat} {a b : Bytes}
    (h : Corrupts covered stored a b) (hcrc : ∀ {a b}, Burst a b → crc a ≠ crc b) (hle : covered ≤ stored)
    (hroom : stored + 2 ≤ a.length)
    (hvalid : CrcStatus.check (a.u16At stored) (crc (a.take covered)) = .valid) :
    (CrcStatus.check (b.u16At stored) (crc (b.take covered))).isInvalid = true := by
  have hmatch : a.u16At stored = crc (a.take covered) := CrcStatus.eq_of_check hvalid
  rw [CrcStatus.isInvalid_check]
  -- What was hit is one side of the comparison, and the other side is as before.
  rcases h.place with hwithin | hwithin
  · rw [← hwithin.u16At_eq_of_ge (by omega), hmatch]
    exact hcrc (h.burst.take hwithin)
  · rw [← hwithin.take_eq (Nat.mul_le_mul_left 8 hle), ← hmatch]
    exact (hwithin.u16At_ne h.burst.ne hroom).symm

/-! ### Records of a table -/

/-- A dword whose lower half is cleared, byte by byte. -/
theorem Bytes.u32_setBits_low (word : UInt32) :
    Bytes.u32 (setBits word 15 0 0) = (Bytes.u32 word).take 2 ++ [0, 0] := by
  have hhalves (n : Nat) :
      Bytes.ofNat 4 n = Bytes.ofNat 2 (n / 256 / 256) ++ [UInt8.ofNat (n / 256), UInt8.ofNat n] := rfl
  have hzero (n : Nat) : UInt8.ofNat (n * 256) = 0 := by
    apply UInt8.toNat_inj.1
    rw [UInt8.toNat_ofNat', Nat.mul_mod_left]
    rfl
  have hstep (n : Nat) : n * 2 ^ 16 = n * 256 * 256 := by omega
  rw [Bytes.u32, Bytes.u32, toNat_setBits_low, hhalves, hhalves, hstep, hzero,
    Nat.mul_div_cancel _ (by decide), hzero, Nat.mul_div_cancel _ (by decide), Nat.div_div_eq_div_mul,
    List.take_left' (Bytes.length_ofNat 2 _)]
  rfl

namespace TocRecord

/-- The dwords of a record stand in its stored form. -/
theorem getElem?_dwords (r : TocRecord) {i : Nat} (hi : i < 8) :
    r.dwords[i]? = some (r.encode.u32At (i * 4)) := by
  have hbound : i < r.dwords.length := by rwa [r.length_dwords]
  have hread := Bytes.u32At_ofDwords_append r.dwords [] hbound
  rw [List.append_nil] at hread
  rw [List.getElem?_eq_getElem hbound, ← hread, encode]

/-- A field in the lower half of a dword is a word of the stored form. -/
theorem get_low (r : TocRecord) {f : BitField} (hdword : f.dword < 8) (hmsb : f.msb = 15) (hlsb : f.lsb = 0) :
    (f.get r.dwords).toUInt16 = r.encode.u16At (f.dword * 4 + 2) := by
  have hroom : f.dword * 4 + 4 ≤ r.encode.length := by
    rw [length_encode, size]
    omega
  rw [BitField.get, r.getElem?_dwords hdword, hmsb, hlsb, toUInt16_bits_low, Bytes.toUInt16_u32At hroom]

/-- **A record with its CRC cleared** is what stands in front of the CRC, and two zero bytes. -/
theorem encode_replace_crc (r : TocRecord) :
    (r.replace TocHeader.headerCrcField 0).encode = r.encode.take 30 ++ [0, 0] := by
  have hlength := r.length_dwords
  -- The dword of the CRC is the last one.
  obtain ⟨front, word, rest, hsplit, hfront, hreplace⟩ :=
    List.exists_of_modify (fun word => setBits word 15 0 0) (show 7 < r.dwords.length by omega)
  obtain rfl : rest = [] := by
    rw [hsplit, List.length_append, List.length_cons, hfront] at hlength
    exact List.eq_nil_of_length_eq_zero (by omega)
  have hcount : (Bytes.ofDwords front).length = 28 := by
    simp [Bytes.ofDwords, List.length_flatMap, List.map_const', hfront]
  have hencode (last : UInt32) :
      Bytes.ofDwords (front ++ [last]) = Bytes.ofDwords front ++ Bytes.u32 last := by
    rw [Bytes.ofDwords, List.flatMap_append, List.flatMap_singleton]
    rfl
  have hthirty : 30 = (Bytes.ofDwords front).length + 2 := by rw [hcount]
  show Bytes.ofDwords (r.dwords.modify 7 fun word => setBits word 15 0 0)
    = (Bytes.ofDwords r.dwords).take 30 ++ _
  rw [hreplace, hsplit, hencode, hencode, Bytes.u32_setBits_low, hthirty, List.take_length_add_append,
    List.append_assoc]

end TocRecord

/-- Zero bytes up to whole dwords make no difference to the software CRC. -/
theorem Crc.software_append_padding (data : Bytes) :
    software (data ++ List.replicate (padding data) 0) = software data := by
  have hwhole : padding (data ++ List.replicate (padding data) 0) = 0 := by
    rw [padding, List.length_append, List.length_replicate, padding]
    omega
  rw [software, hwhole, run_append]
  rfl

/-- **The CRC of a header** is the one of the bytes in front of the place it is stored in. -/
theorem TocHeader.computedCrc_eq (h : TocHeader) :
    h.computedCrc = Crc.software (h.encode.take 30) := by
  have hcount : (h.encode.take 30).length = 30 := by
    rw [List.length_take, encode, TocRecord.length_encode]
    rfl
  -- The two zero bytes in the place of the CRC are the ones that fill up the last dword anyway.
  have hpadding : Crc.padding (h.encode.take 30) = 2 := by rw [Crc.padding, hcount]
  rw [← Crc.software_append_padding (h.encode.take 30), hpadding, computedCrc,
    TocRecord.encode_replace_crc]
  rfl

/-- **The header of a table** is checked by the word at its end, over the bytes in front of it. -/
theorem TocHeader.status_eq (h : TocHeader) :
    h.status = .check (h.encode.u16At 30) (Crc.software (h.encode.take 30)) := by
  rw [status, computedCrc_eq, headerCrc, get, h.record.get_low (by decide) rfl rfl]
  rfl

/-- **An entry of a table** is checked by the word at its end, over the bytes in front of it. -/
theorem TocEntry.status_eq (e : TocEntry) :
    e.status = .check (e.encode.u16At 30) (Crc.software (e.encode.take 30)) := by
  rw [status, entryCrc, get, e.record.get_low (by decide) rfl rfl]
  rfl

/-- **Damage to a header** is noticed. -/
theorem TocHeader.isInvalid_of_corrupts {h h' : TocHeader} (hvalid : h.status = .valid)
    (hdamage : Corrupts 30 30 h.encode h'.encode) : h'.status.isInvalid = true := by
  rw [status_eq] at hvalid ⊢
  exact hdamage.isInvalid_check Crc.software_ne (Nat.le_refl 30)
    (Nat.le_of_eq h.record.length_encode.symm) hvalid

/-- **Damage to an entry** is noticed. -/
theorem TocEntry.isInvalid_of_corrupts {e e' : TocEntry} (hvalid : e.status = .valid)
    (hdamage : Corrupts 30 30 e.encode e'.encode) : e'.status.isInvalid = true := by
  rw [status_eq] at hvalid ⊢
  exact hdamage.isInvalid_check Crc.software_ne (Nat.le_refl 30)
    (Nat.le_of_eq e.record.length_encode.symm) hvalid

/-! ### Pointers -/

/-- **A pointer that is present** is checked by the word at its end, over the bytes in front of it. -/
theorem Pointer.status_eq {p : Pointer} (h : p.isAbsent = false) :
    p.status = .check (p.encode.u16At 6) (Crc.hardware (p.encode.take 6)) := by
  have hcount : p.covered.length = 6 := by
    rw [covered, List.length_append, Bytes.length_u32, Bytes.length_u16]
  have hstored : p.encode.u16At 6 = p.crc := by
    rw [encode, ← hcount, Bytes.u16At_append_u16]
  have hcovered : p.encode.take 6 = p.covered := List.take_left' hcount
  rw [status, h, hstored, hcovered, computedCrc]
  rfl

/-- A pointer is absent by its first bytes. -/
theorem Pointer.isAbsent_congr {p q : Pointer} (h : p.encode.take 6 = q.encode.take 6) :
    p.isAbsent = q.isAbsent := by
  have hvalue (p : Pointer) : p.value = Bytes.u32At (p.encode.take 6) 0 := by
    have hfront : p.encode.take 6 = Bytes.u32 p.value ++ Bytes.u16 p.reserved :=
      List.take_left' (by rw [covered, List.length_append, Bytes.length_u32, Bytes.length_u16])
    rw [hfront, Bytes.u32At_u32_append]
  rw [isAbsent, isAbsent, hvalue p, hvalue q, h]

/-- A pointer that was checked is present. -/
theorem Pointer.isAbsent_of_valid {p : Pointer} (h : p.status = .valid) : p.isAbsent = false := by
  rw [status] at h
  split at h
  · cases h
  · next hpresent => exact Bool.eq_false_iff.2 hpresent

/-- **Damage to a pointer** is noticed, unless the pointer is absent by it. -/
theorem Pointer.isInvalid_of_corrupts {p p' : Pointer} (hvalid : p.status = .valid)
    (h : Corrupts 6 6 p.encode p'.encode) (hpresent : p'.isAbsent = false) :
    p'.status.isInvalid = true := by
  have hroom : 6 + 2 ≤ p.encode.length := by
    rw [length_encode]
    decide
  rw [status_eq (isAbsent_of_valid hvalid)] at hvalid
  rw [status_eq hpresent]
  exact h.isInvalid_check Crc.hardware_ne (Nat.le_refl 6) hroom hvalid

/-! ### Sections -/

/-- How far in front of the end of a section the CRC stands that is stored in a half of its last dword. -/
def CrcSlot.fromEnd : CrcSlot → Nat
  | high => 4
  | low => 2

namespace Section

variable {s : Section}

/-- A valid section with a CRC of its own is not encrypted. -/
theorem check_of_valid {stored computed : UInt16} (hplace : s.place ≠ .none)
    (hstored : s.storedCrc = some stored) (hcomputed : s.computedCrc = some computed)
    (hvalid : s.status = .valid) :
    s.encrypted = false ∧ CrcStatus.check stored computed = .valid := by
  rw [status_of_crc (selfChecked_of_place hplace) hstored hcomputed] at hvalid
  split at hvalid
  · cases hvalid
  · next hplain => exact ⟨Bool.eq_false_iff.2 hplain, hvalid⟩

/-- **The CRC in a trailing dword** is a word of the section. -/
theorem storedCrc_of_trailer (h : s.place = .trailer) :
    s.storedCrc = some (s.data.u16At (s.data.length - s.type.slot.fromEnd)) := by
  have hroom : trailerSize ≤ s.data.length := (place_eq_trailer_iff.1 h).2.2
  unfold trailerSize at hroom
  have hfit : s.data.length - 4 + 4 ≤ s.data.length := by omega
  rw [storedCrc, h, trailerSize]
  cases s.type.slot with
  | high => exact congrArg some (Bytes.toUInt16_u32At_shiftRight hfit)
  | low =>
    have hlow : s.data.length - CrcSlot.low.fromEnd = s.data.length - 4 + 2 := by
      rw [CrcSlot.fromEnd]
      omega
    rw [hlow]
    exact congrArg some (Bytes.toUInt16_u32At hfit)

/-- **Damage to a section with its CRC at the end** is noticed. -/
theorem isInvalid_of_trailer (hvalid : s.status = .valid) (hplace : s.place = .trailer) {data : Bytes}
    (h : Corrupts (s.data.length - trailerSize) (s.data.length - s.type.slot.fromEnd) s.data data) :
    ({ s with data := data } : Section).status.isInvalid = true := by
  let t : Section := { s with data := data }
  have hlength : data.length = s.data.length := h.burst.length_eq.symm
  have hroom : trailerSize ≤ s.data.length := (place_eq_trailer_iff.1 hplace).2.2
  have hslot : s.type.slot.fromEnd ≤ trailerSize ∧ 2 ≤ s.type.slot.fromEnd := by
    cases s.type.slot <;> decide
  -- A burst keeps the length, so the CRC is where it was.
  have hplace' : t.place = .trailer := (place_congr (s := t) (t := s) rfl hlength rfl rfl).trans hplace
  have hcomputed {u : Section} (hu : u.place = .trailer) :
      u.computedCrc = some (Crc.software (u.data.take (u.data.length - trailerSize))) := by
    rw [computedCrc, hu]
  obtain ⟨hplain, hcheck⟩ :=
    check_of_valid (by rw [hplace]; decide) (storedCrc_of_trailer hplace) (hcomputed hplace) hvalid
  have hstatus : t.status = .check (data.u16At (s.data.length - s.type.slot.fromEnd))
      (Crc.software (data.take (s.data.length - trailerSize))) := by
    rw [status_of_plain (by rw [hplace']; decide) (storedCrc_of_trailer hplace') (hcomputed hplace') hplain,
      ← hlength]
    rfl
  rw [hstatus]
  exact h.isInvalid_check Crc.software_ne (by omega) (by omega) hcheck

/-- A section with its CRC in the entry compares the CRC there with the one of all its bytes. -/
theorem crcs_of_entry (h : s.place = .entry) {e : TocEntry} (he : s.entry = some e) :
    s.storedCrc = some (e.encode.u16At 26) ∧ s.computedCrc = some (Crc.software s.data) := by
  constructor
  · rw [storedCrc, h, he, Option.map_some, TocEntry.sectionCrc, TocEntry.get,
      e.record.get_low (by decide) rfl rfl]
    rfl
  · rw [computedCrc, h]

/-- A valid section with its CRC in the entry is invalid after any change by which the two do not match any
more, as long as the CRC stays in the entry. -/
theorem isInvalid_of_entry_ne {t : Section} (hvalid : s.status = .valid) (hplace : s.place = .entry)
    (hplace' : t.place = .entry) (hencrypted : t.encrypted = s.encrypted) {e e' : TocEntry}
    (he : s.entry = some e) (he' : t.entry = some e')
    (hne : e.encode.u16At 26 = Crc.software s.data → e'.encode.u16At 26 ≠ Crc.software t.data) :
    t.status.isInvalid = true := by
  obtain ⟨hstored, hcomputed⟩ := crcs_of_entry hplace he
  obtain ⟨hstored', hcomputed'⟩ := crcs_of_entry hplace' he'
  obtain ⟨hplain, hcheck⟩ := check_of_valid (by rw [hplace]; decide) hstored hcomputed hvalid
  rw [status_of_plain (by rw [hplace']; decide) hstored' hcomputed' (hencrypted.trans hplain),
    CrcStatus.isInvalid_check]
  exact hne (CrcStatus.eq_of_check hcheck)

/-- **Damage to a section with its CRC in the entry** is noticed. -/
theorem isInvalid_of_entry (hvalid : s.status = .valid) (hplace : s.place = .entry) {data : Bytes}
    (h : Burst s.data data) : ({ s with data := data } : Section).status.isInvalid = true := by
  let t : Section := { s with data := data }
  obtain ⟨e, he⟩ := exists_entry_of_place hplace
  have hplace' : t.place = .entry :=
    (place_congr (s := t) (t := s) rfl h.length_eq.symm rfl rfl).trans hplace
  refine isInvalid_of_entry_ne (t := t) hvalid hplace hplace' rfl he he fun hmatch => ?_
  rw [hmatch]
  exact Crc.software_ne h

end Section

/-- Whether an entry says that there is no CRC stands in front of the CRC of the section. -/
theorem TocEntry.noCrc_congr {e e' : TocEntry} (h : e.encode.u16At 24 = e'.encode.u16At 24) :
    e.noCrc = e'.noCrc := by
  have hbit (e : TocEntry) : (e.get noCrcField).toNat = (e.encode.u16At 24).toNat % 2 := by
    have hroom : 24 + 4 ≤ e.encode.length := by
      rw [encode, TocRecord.length_encode]
      decide
    have hlow := (e.encode.u16At (24 + 2)).toNat_lt
    have hget : e.get noCrcField = bits (e.encode.u32At 24) 16 16 := by
      rw [get, BitField.get, e.record.getElem?_dwords (by decide)]
      rfl
    rw [hget, toNat_bits _ (by decide) (by decide), Bytes.toNat_u32At hroom]
    omega
  have hsame : e.get noCrcField = e'.get noCrcField := by
    apply UInt32.toNat_inj.1
    rw [hbit, hbit, h]
  show decide (e.get noCrcField ≠ 0) = decide (e'.get noCrcField ≠ 0)
  rw [hsame]

/-- **Damage to the CRC in the entry** of a section is noticed. -/
theorem Section.isInvalid_of_entryCrc {s : Section} (hvalid : s.status = .valid) (hplace : s.place = .entry)
    {e e' : TocEntry} (he : s.entry = some e) (hne : e.encode ≠ e'.encode)
    (hwithin : DifferWithin (8 * 26) 16 e.encode e'.encode) :
    ({ s with entry := some e' } : Section).status.isInvalid = true := by
  let t : Section := { s with entry := some e' }
  -- The bit that would deny a CRC is not hit, so the CRC stays in the entry.
  have hnoCrc : e.noCrc = e'.noCrc := TocEntry.noCrc_congr (hwithin.u16At_eq_of_le (Nat.le_refl _))
  have hplace' : t.place = .entry := by
    refine (place_congr (s := t) (t := s) rfl rfl ?_ ?_).trans hplace
    · rw [he]
      rfl
    · rw [he]
      exact hnoCrc.symm
  have hroom : 26 + 2 ≤ e.encode.length := by
    rw [TocEntry.encode, TocRecord.length_encode]
    decide
  refine isInvalid_of_entry_ne (t := t) hvalid hplace hplace' rfl he rfl fun hmatch hsame => ?_
  exact hwithin.u16At_ne hne hroom (hmatch.trans hsame.symm)

/-! ### The result -/

/-- **What the checks notice.** A record is given by its fields; its damaged form is whatever record the
damaged bytes are the stored form of. -/
structure CorruptionDetected : Prop where
  software : ∀ a b, Burst a b → Crc.software a ≠ Crc.software b
  hardware : ∀ a b, Burst a b → Crc.hardware a ≠ Crc.hardware b
  /-- The header of a table: 30 bytes and their CRC. -/
  header : ∀ h h' : TocHeader, h.status = .valid → Corrupts 30 30 h.encode h'.encode →
    h'.status.isInvalid = true
  /-- An entry of a table: 30 bytes and their CRC. -/
  entry : ∀ e e' : TocEntry, e.status = .valid → Corrupts 30 30 e.encode e'.encode →
    e'.status.isInvalid = true
  /-- A pointer: six bytes, unless what comes of them is the mark of an absent pointer. -/
  pointer : ∀ p p' : Pointer, p.status = .valid → Burst p.encode p'.encode →
    DifferWithin 0 (8 * 6) p.encode p'.encode → p'.isAbsent = false → p'.status.isInvalid = true
  /-- The CRC of a pointer, behind the six bytes. -/
  pointerCrc : ∀ p p' : Pointer, p.status = .valid → p.encode ≠ p'.encode →
    DifferWithin (8 * 6) 16 p.encode p'.encode → p'.status.isInvalid = true
  /-- A section with its CRC in the entry, and the same entry. -/
  sectionByEntry : ∀ (s : Section) (data : Bytes), s.status = .valid → s.place = .entry →
    Burst s.data data → ({ s with data := data } : Section).status.isInvalid = true
  /-- The CRC in the entry of such a section. -/
  sectionEntryCrc : ∀ (s : Section) (e e' : TocEntry), s.status = .valid → s.place = .entry →
    s.entry = some e → e.encode ≠ e'.encode → DifferWithin (8 * 26) 16 e.encode e'.encode →
    ({ s with entry := some e' } : Section).status.isInvalid = true
  /-- A section with its CRC in its last dword: all in front of that dword, and the CRC in one half of
  it. -/
  sectionByTrailer : ∀ (s : Section) (data : Bytes), s.status = .valid → s.place = .trailer →
    Corrupts (s.data.length - Section.trailerSize) (s.data.length - s.type.slot.fromEnd) s.data data →
    ({ s with data := data } : Section).status.isInvalid = true

/-- **Damage is noticed.** A burst changes both CRCs. So a record or section that is valid is invalid
after a burst in what its CRC covers, or in the CRC alone. -/
theorem corruption_detected : CorruptionDetected where
  software _ _ h := Crc.software_ne h
  hardware _ _ h := Crc.hardware_ne h
  header _ _ hvalid hdamage := TocHeader.isInvalid_of_corrupts hvalid hdamage
  entry _ _ hvalid hdamage := TocEntry.isInvalid_of_corrupts hvalid hdamage
  pointer _ _ hvalid hburst hwithin hpresent :=
    Pointer.isInvalid_of_corrupts hvalid ⟨hburst, .inl hwithin⟩ hpresent
  pointerCrc p p' hvalid hne hwithin := by
    -- The mark of an absent pointer is in front of the CRC.
    have hsame := Pointer.isAbsent_congr (hwithin.take_eq (Nat.le_refl _))
    exact Pointer.isInvalid_of_corrupts hvalid ⟨⟨hne, _, hwithin⟩, .inr hwithin⟩
      (hsame ▸ Pointer.isAbsent_of_valid hvalid)
  sectionByEntry _ _ hvalid hplace hburst := Section.isInvalid_of_entry hvalid hplace hburst
  sectionEntryCrc _ _ _ hvalid hplace he hne hwithin :=
    Section.isInvalid_of_entryCrc hvalid hplace he hne hwithin
  sectionByTrailer _ _ hvalid hplace hdamage := Section.isInvalid_of_trailer hvalid hplace hdamage

/-- Product data of four bytes with their CRC behind them. Two bits five places apart are flipped, and the
section is not valid any more. -/
theorem corruption_detected_vpd :
    ∃ (s : Section) (data : Bytes), s.status = .valid ∧ s.place = .trailer ∧
      Corrupts 4 4 s.data data ∧ ({ s with data := data } : Section).status.isInvalid = true := by
  let s : Section := ⟨0xe3, 0, [0x41, 0x42, 0x43, 0x44, 0x89, 0x4c, 0, 0], .toc .dtoc 0, none, false⟩
  let data : Bytes := [0x41, 0x43, 0x4b, 0x44, 0x89, 0x4c, 0, 0]
  have hvalid : s.status = .valid := by decide +kernel
  have hplace : s.place = .trailer := by decide
  have hburst : Burst s.data data := ⟨by decide, 12, by decide +kernel⟩
  have hdamage : Corrupts 4 4 s.data data := ⟨hburst, .inl (by decide +kernel)⟩
  exact ⟨s, data, hvalid, hplace, hdamage, corruption_detected.sectionByTrailer s data hvalid hplace hdamage⟩

end FlashImage
