import FlashImage.Algorithms.Standard
import FlashImage.Proofs.Image.Anchors
import FlashImage.Proofs.Image.Sections
import FlashImage.Proofs.Section.BitExact
import FlashImage.Proofs.Section.Status

/-!
# Projecting the sections of an image loses nothing

A projection of a section is written again before it is trusted, and has to give the contents of the
section back. In an image that check never says no (`Image.project_eq`). For most forms this is so for any
contents; the pointer array and the tables stand for only the front of their contents, but an image
cuts their sections to just that length.
-/

namespace FlashImage

namespace Projection

/-- Only contents of its own kind are read as a pointer array. -/
theorem family_of_pointers [Algorithms] {family : Family} {d : Bytes} {ps : Pointers}
    (h : decode family d = .ok (pointers ps)) : family = .pointers := by
  cases family with
  | pointers => rfl
  | generic | debugParams | blob | vpd => cases h
  | _ =>
    obtain ⟨_, -, heq⟩ := exists_of_map_eq_ok h
    cases heq

/-- Only contents of its own kind are read as a table. -/
theorem family_of_toc [Algorithms] {family : Family} {d : Bytes} {t : Toc}
    (h : decode family d = .ok (toc t)) : family = .toc ∧ Toc.decode d = .ok t := by
  cases family with
  | toc =>
    obtain ⟨t', ht, heq⟩ := exists_of_map_eq_ok h
    cases heq
    exact ⟨rfl, eq_ok_of_mapError_eq_ok ht⟩
  | generic | debugParams | blob | vpd => cases h
  | _ =>
    obtain ⟨_, -, heq⟩ := exists_of_map_eq_ok h
    cases heq

end Projection

namespace Image

/-- The pointer array of an image has all of its records and nothing else. -/
theorem length_payload_of_pointers {i : Image} {s : Section} (hs : s ∈ i.sections)
    (h : s.type.family = .pointers) : s.payload.length = Pointers.size := by
  obtain ⟨hcode, hplace⟩ :=
    SectionCode.of_family_pointers _ (Section.mem_catalog (by rw [h]; decide)) h
  obtain ⟨p, hp, hsection⟩ := exists_placement hs
  obtain ⟨length, hlength, -, hfit, rfl⟩ := Placement.exists_of_section? hsection
  have hplacement := (announces_of_mem_placements hp).eq_of_code hcode
  obtain rfl : length = Pointers.size :=
    Option.some.inj (hlength.symm.trans (congrArg Placement.length hplacement))
  rw [Section.payload_of_place hplace]
  exact Bytes.length_slice_of_le hfit

/-- A table of an image is read from its own section. -/
theorem decode_payload_of_toc {i : Image} (hi : i.Anchored) {s : Section} (hs : s ∈ i.sections)
    (h : s.type.family = .toc) :
    ∃ t, Toc.decode s.payload = .ok t ∧ s.payload.length = t.size := by
  obtain ⟨hcode, hplace⟩ := SectionCode.of_family_toc _ (Section.mem_catalog (by rw [h]; decide)) h
  obtain ⟨p, hp, hsection⟩ := exists_placement hs
  obtain ⟨length, hlength, -, hfit, rfl⟩ := Placement.exists_of_section? hsection
  obtain ⟨t, ht, rfl⟩ := (announces_of_mem_placements hp).table_of_code hcode
  obtain rfl : t.toc.size = length := Option.some.inj hlength
  obtain ⟨-, htoc⟩ := decode_of_mem_tables hi ht
  rw [Section.payload_of_place hplace]
  exact ⟨t.toc, (Toc.decode_spec htoc).2.2, Bytes.length_slice_of_le hfit⟩

/-- **A projection stands for all the contents** of a section of an image. -/
theorem covered_payload [Algorithms] {i : Image} (hi : i.Anchored) {s : Section} (hs : s ∈ i.sections)
    {p : Projection} (h : Projection.decode s.type.family s.payload = .ok p) :
    p.covered s.payload = s.payload := by
  cases p with
  | pointers ps =>
    -- The two forms that stand for only the front: their sections are just as long.
    have hlength := length_payload_of_pointers hs (Projection.family_of_pointers h)
    exact List.take_of_length_le (Nat.le_of_eq hlength)
  | toc t =>
    obtain ⟨hfamily, ht⟩ := Projection.family_of_toc h
    obtain ⟨t', ht', hlength⟩ := decode_payload_of_toc hi hs hfamily
    obtain rfl : t' = t := Except.ok.inj (ht'.symm.trans ht)
    exact List.take_of_length_le (Nat.le_of_eq hlength)
  | _ => rfl

/-- **The check of a projection never says no** to a section of an image: what comes of projecting it
is what comes of reading its contents. -/
theorem project_eq [Algorithms] {i : Image} (hi : i.Anchored) {s : Section} (hs : s ∈ i.sections) :
    s.project = if s.misfits then .error (.badLength s.data.length)
      else Projection.decode s.type.family s.payload := by
  rw [Section.project]
  split
  · rfl
  cases hdecode : Projection.decode s.type.family s.payload with
  | error e => rfl
  | ok p =>
    show (if p.keepsBytes then pure p else _) = Except.ok p
    split
    · rfl
    next hkeeps =>
    -- Opaque contents have no form to be written from, but they are kept as bytes.
    have hfamily : s.type.family ≠ .generic := by
      intro hgeneric
      rw [hgeneric] at hdecode
      cases hdecode
      exact hkeeps rfl
    have hencode := Projection.encode_of_decode hdecode hfamily
    rw [covered_payload hi hs hdecode] at hencode
    rw [hencode]
    exact if_pos rfl

/-- **Projections are bit-exact.** Whatever is read from the contents of a section is written as the
very bytes it was read from; a pointer array and a table stand for as much of them as they are long.
Hence no section of an image is kept raw because its projection would not give its bytes back. -/
theorem projections_bit_exact [Algorithms] :
    (∀ family d p, family ≠ Family.generic → Projection.decode family d = .ok p →
      p.encode = .ok (p.covered d)) ∧
    (∀ data i, Image.parse data = .ok i → ∀ s ∈ i.sections,
      s.project = if s.misfits then .error (.badLength s.data.length)
        else Projection.decode s.type.family s.payload) := by
  refine ⟨fun family d p hfamily h => Projection.encode_of_decode h hfamily, ?_⟩
  intro data i hi s hs
  exact project_eq (anchored_of_parse hi).2 hs

/-- A record for the flashing tools with all of its reserved bits in use, and the small image. -/
theorem projections_bit_exact_smallImage :
    (∃ p, @Projection.decode Algorithms.standard .toolsArea (List.replicate 64 0xa5) = .ok p ∧
      p.encode = .ok (List.replicate 64 0xa5)) ∧
    ∃ i, Image.parse smallImage = .ok i ∧ ∀ s ∈ i.sections,
      @Section.project Algorithms.standard s = if s.misfits then .error (.badLength s.data.length)
        else @Projection.decode Algorithms.standard s.type.family s.payload := by
  obtain ⟨hforms, himages⟩ := @projections_bit_exact Algorithms.standard
  obtain ⟨i, hi⟩ := exists_parse_smallImage
  refine ⟨⟨.toolsArea ⟨0xa5a5a5a5, 0xa5a5a5a5, 0xa5a5a5a5, List.replicate 48 0xa5, 0xa5a5, 0xa5a5⟩,
    by rfl, ?_⟩, i, hi, himages smallImage i hi⟩
  exact hforms .toolsArea (List.replicate 64 0xa5) _ (by decide) rfl

end Image

end FlashImage
