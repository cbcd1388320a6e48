import FlashImage.Proofs.Image.Projections
import FlashImage.Proofs.Metadata.OfImage

/-!
# The pointer array and the tables as sections

The pointer array and the tables of an image are read before there are any sections, and later each of
them is a section as well, checked by reading it a second time. Both readings see the same thing: the
range of the section is cut to what the first one took, and neither depends on what stands behind that
range. So the outcome of checking the section is the outcome of checking the records that were read first
(`Image.status_pointerArraySection`, `Image.status_tableSection`).

These sections are in every image (`Image.pointerArraySection_mem`, `Image.tableSection_mem`), and no other
section has their codes (`Image.eq_pointerArraySection`, `Image.exists_eq_tableSection`).
-/

namespace FlashImage

/-! ### Reading again what was read -/

/-- A pointer depends on nothing behind it. -/
theorem Pointer.decodeAt_take {bs : Bytes} {offset n : Nat} (h : offset + size ≤ n) :
    decodeAt (bs.take n) offset = decodeAt bs offset := by
  unfold size at h
  simp only [decodeAt, Bytes.u32At, Bytes.u16At]
  rw [Bytes.slice_take (by omega), Bytes.slice_take (by omega), Bytes.slice_take (by omega)]

/-- **What reading the pointer array takes**: its own size from the front, which is all that it depends
on. -/
theorem Pointers.decode_spec {bs : Bytes} {ps : Pointers} (h : decode bs = .ok ps) :
    size ≤ bs.length ∧ decode (bs.take size) = .ok ps := by
  rw [decode] at h
  split at h
  · next hlength =>
    refine ⟨hlength, ?_⟩
    have hcut : size ≤ (bs.take size).length := by
      rw [List.length_take]
      omega
    rw [decode, if_pos hcut, ← h]
    congr 2
    refine List.map_congr_left fun i hi => Pointer.decodeAt_take ?_
    have hi : i < 16 := List.mem_range.1 hi
    unfold size count Pointer.size
    omega
  · cases h

/-- A table has a header at least. -/
theorem Toc.size_pos (t : Toc) : 0 < t.size := by
  unfold size TocRecord.size
  omega

namespace Section

variable {s : Section}

/-- **The pointer array and the tables report on their own records**, and nothing else does. -/
theorem selfChecked_iff : s.selfChecked = true ↔
    s.code = SectionCode.pointers ∨ s.code = SectionCode.itoc ∨ s.code = SectionCode.dtoc := by
  constructor
  · intro h
    rw [selfChecked] at h
    split at h
    · next hfamily =>
      exact Or.inl (SectionCode.of_family_pointers _ (mem_catalog (by rw [hfamily]; decide)) hfamily).1
    · next hfamily =>
      exact Or.inr (SectionCode.of_family_toc _ (mem_catalog (by rw [hfamily]; decide)) hfamily).1
    · cases h
  · rintro (h | h | h) <;> (rw [selfChecked, type, h]; rfl)

/-- A pointer array is checked by its records. -/
theorem status_of_pointers (h : s.code = SectionCode.pointers) {ps : Pointers}
    (hps : Pointers.decode s.data = .ok ps) : s.status = ps.status := by
  have hfamily : s.type.family = .pointers := by
    rw [type, h]
    rfl
  simp only [status, hfamily, hps]

/-- A table is checked by its records. -/
theorem status_of_table {k : TocKind} (h : s.code = Image.tocCode k) {t : Toc}
    (ht : Toc.decode s.data = .ok t) : s.status = t.status := by
  have hfamily : s.type.family = .toc := by
    rw [type, h]
    cases k <;> rfl
  simp only [status, hfamily, ht]

end Section

namespace Image

/-! ### The sections -/

/-- **The pointer array of an image, as a section.** -/
def pointerArraySection (i : Image) : Section :=
  ⟨SectionCode.pointers, i.pointersOffset, i.data.slice i.pointersOffset Pointers.size, .pointerArray,
    none, i.encrypted⟩

/-- **A table of an image, as a section.** -/
def tableSection (i : Image) (t : PlacedToc) : Section :=
  ⟨tocCode t.toc.kind, t.address, i.data.slice t.address t.toc.size, .tocHeader t.toc.kind, none,
    i.encrypted⟩

variable {i : Image}

/-- The pointer array is announced, and the image holds all of it. -/
theorem section?_pointerArray (hi : i.Anchored) :
    (Placement.mk SectionCode.pointers i.pointersOffset (some Pointers.size) .pointerArray none).section?
      i.data i.encrypted = some i.pointerArraySection := by
  have hsize := (Pointers.decode_spec hi.pointers).1
  have hpos : Pointers.size ≠ 0 := by decide
  have hfit : i.pointersOffset + Pointers.size ≤ i.data.length := by
    rw [List.length_drop] at hsize
    unfold pointersOffset
    omega
  exact if_pos ⟨hpos, hfit⟩

/-- A table is announced, and the image holds all of it. -/
theorem section?_tableOf (hi : i.Anchored) {t : PlacedToc} (ht : t ∈ i.tables) :
    (tableOf t).section? i.data i.encrypted = some (i.tableSection t) :=
  if_pos ⟨Nat.pos_iff_ne_zero.1 t.toc.size_pos, size_le_of_mem_tables hi ht⟩

/-- What an announcement gives is a section of the image. -/
theorem mem_sections_of_section? {p : Placement} (hp : p ∈ i.placements) {s : Section}
    (hs : p.section? i.data i.encrypted = some s) : s ∈ i.sections := by
  rw [sections, List.mem_mergeSort, List.mem_filterMap]
  exact ⟨p, hp, hs⟩

theorem pointerArraySection_mem (hi : i.Anchored) : i.pointerArraySection ∈ i.sections :=
  mem_sections_of_section? List.mem_cons_self (section?_pointerArray hi)

theorem tableSection_mem (hi : i.Anchored) {t : PlacedToc} (ht : t ∈ i.tables) :
    i.tableSection t ∈ i.sections := by
  refine mem_sections_of_section? ?_ (section?_tableOf hi ht)
  have hmem : tableOf t ∈ tableOf i.itoc :: i.dtoc.toList.map tableOf :=
    List.mem_map_of_mem (f := tableOf) ht
  simp only [placements, List.cons_append, List.mem_cons, List.mem_append] at hmem ⊢
  tauto

/-- No other section has the code of the pointer array. -/
theorem eq_pointerArraySection (hi : i.Anchored) {s : Section} (hs : s ∈ i.sections)
    (hcode : s.code = SectionCode.pointers) : s = i.pointerArraySection := by
  obtain ⟨p, hp, hsection⟩ := exists_placement hs
  have hpcode : p.code = SectionCode.pointers := by
    obtain ⟨length, -, -, -, rfl⟩ := Placement.exists_of_section? hsection
    exact hcode
  obtain rfl := (announces_of_mem_placements hp).eq_of_code hpcode
  rw [section?_pointerArray hi] at hsection
  exact (Option.some.inj hsection).symm

/-- No other sections have the codes of tables. -/
theorem exists_eq_tableSection (hi : i.Anchored) {s : Section} (hs : s ∈ i.sections)
    (hcode : s.code = SectionCode.itoc ∨ s.code = SectionCode.dtoc) :
    ∃ t ∈ i.tables, s = i.tableSection t := by
  obtain ⟨p, hp, hsection⟩ := exists_placement hs
  have hpcode : p.code = SectionCode.itoc ∨ p.code = SectionCode.dtoc := by
    obtain ⟨length, -, -, -, rfl⟩ := Placement.exists_of_section? hsection
    exact hcode
  obtain ⟨t, ht, rfl⟩ := (announces_of_mem_placements hp).table_of_code hpcode
  rw [section?_tableOf hi ht] at hsection
  exact ⟨t, ht, (Option.some.inj hsection).symm⟩

/-! ### Their checks -/

/-- **The section of the pointer array is as valid as the pointers** that were read. -/
theorem status_pointerArraySection (hi : i.Anchored) :
    i.pointerArraySection.status = i.pointers.status :=
  Section.status_of_pointers rfl (Pointers.decode_spec hi.pointers).2

/-- **The section of a table is as valid as the table** that was read. -/
theorem status_tableSection (hi : i.Anchored) {t : PlacedToc} (ht : t ∈ i.tables) :
    (i.tableSection t).status = t.toc.status :=
  Section.status_of_table rfl (Toc.decode_spec (decode_of_mem_tables hi ht).2).2.2

end Image

end FlashImage
