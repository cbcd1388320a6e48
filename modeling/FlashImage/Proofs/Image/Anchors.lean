import FlashImage.Proofs.Image.Reading

/-!
# What is known of an image that was read

Reading an image finds its start, its pointer array and its table of contents, and each of them says
something about the bytes (`Image.Anchored`). The table of the device is read from the same bytes later
on, and is no less a table of them (`Image.decode_of_mem_tables`).
-/

namespace FlashImage

/-- The codes in table entries are those of a single byte. -/
theorem TocEntry.code_lt (e : TocEntry) : e.code.toNat < 0x100 := by
  rw [TocEntry.code, UInt8.toNat_toUInt16]
  exact e.type.toNat_lt

/-- **What reading an image finds in it.** -/
structure Image.Anchored (i : Image) : Prop where
  /-- The image starts at one of the offsets that are tried. -/
  base_mem : i.base ∈ Magic.searchOffsets
  /-- The pattern of the start lies in the image. -/
  base_le : i.base + Magic.pattern.length ≤ i.data.length
  /-- The pointers are read right behind the start. -/
  pointers : Pointers.decode (i.data.drop (i.base + Pointers.offset)) = .ok i.pointers
  /-- The table of contents stands at its address. -/
  itoc : Toc.decode (i.data.drop i.itoc.address) = .ok i.itoc.toc
  itoc_kind : i.itoc.toc.kind = .itoc
  itoc_address : i.itoc.address ≤ i.data.length

namespace Image

/-- An image starts where the pattern stands. -/
theorem base_of_find? {data : Bytes} {base : Nat} (h : Magic.find? data = some base) :
    base ∈ Magic.searchOffsets ∧ base + Magic.pattern.length ≤ data.length := by
  refine ⟨List.mem_of_find?_eq_some h, ?_⟩
  -- All bytes of the pattern were found, so there is room for them.
  have hlength := congrArg List.length (Magic.slice_of_find? h)
  rw [Bytes.length_slice] at hlength
  have hpos : 0 < Magic.pattern.length := by decide
  omega

/-- **Reading an image** keeps its bytes and finds its anchors. -/
theorem anchored_of_parse {data : Bytes} {i : Image} (h : Image.parse data = .ok i) :
    i.data = data ∧ i.Anchored := by
  obtain ⟨rfl, hbase, -, hpointers, address, -, hitoc⟩ := parse_eq_ok_iff.1 h
  obtain ⟨hmem, hle⟩ := base_of_find? hbase
  -- The table was read where its pointer leads, and is of the right kind.
  obtain ⟨haddress, hkind, findings, hread⟩ := readItoc_eq_ok_iff.1 hitoc
  rw [← haddress] at hread
  obtain ⟨hfit, htoc, -⟩ := Toc.of_read hread
  exact ⟨rfl, hmem, hle, readPointers_eq_ok_iff.1 hpointers, htoc, hkind, hfit⟩

/-- The tables of an image: its own, and the one of the device if there is one. -/
def tables (i : Image) : List PlacedToc := i.itoc :: i.dtoc.toList

/-- **A table of an image stands in it.** -/
theorem decode_of_mem_tables {i : Image} (hi : i.Anchored) {t : PlacedToc} (ht : t ∈ i.tables) :
    t.address ≤ i.data.length ∧ Toc.decode (i.data.drop t.address) = .ok t.toc := by
  rcases List.mem_cons.1 ht with rfl | ht
  · exact ⟨hi.itoc_address, hi.itoc⟩
  · have ht : i.dtoc = some t := Option.mem_toList.1 ht
    unfold dtoc at ht
    split at ht
    · next address toc findings hread =>
      split at ht
      · cases ht
        obtain ⟨address', -, heq⟩ := Option.map_eq_some_iff.1 hread
        obtain ⟨rfl, hresult⟩ := Prod.mk.inj heq
        obtain ⟨hfit, htoc, -⟩ := Toc.of_read hresult
        exact ⟨hfit, htoc⟩
      · cases ht
    · cases ht

/-! ### What announces a section -/

/-- **What announces a section** in an image. -/
inductive Announces (i : Image) : Placement → Prop where
  /-- The start of the image announces the pointer array. -/
  | pointerArray :
    Announces i ⟨SectionCode.pointers, i.pointersOffset, some Pointers.size, .pointerArray, none⟩
  /-- A table is a section itself. -/
  | table (t : PlacedToc) (ht : t ∈ i.tables) : Announces i (tableOf t)
  /-- A pointer leads to a structure without an entry. -/
  | pointer (role : Role) (code : SectionCode) (length? : Bytes → Option Nat)
      (hrole : (role, code, length?) ∈ pointedTo) (index address : Nat)
      (haddress : i.pointers.address? i.format role = some address) :
    Announces i ⟨code, i.base + address, length? (i.data.drop (i.base + address)), .pointer index, none⟩
  /-- An entry of a table announces the section it is about. -/
  | entry (t : PlacedToc) (ht : t ∈ i.tables) (e : TocEntry) (index : Nat)
      (he : (e, index) ∈ t.toc.entries.zipIdx) :
    Announces i ⟨e.code, i.base + e.address, some e.size, .toc t.toc.kind index, some e⟩

/-- The entries of a table of the image announce their sections. -/
theorem announces_of_mem_entriesOf {i : Image} {t : PlacedToc} (ht : t ∈ i.tables) {p : Placement}
    (hp : p ∈ entriesOf i.base t) : i.Announces p := by
  obtain ⟨⟨e, index⟩, he, rfl⟩ := List.mem_map.1 hp
  exact .entry t ht e index he

/-- **Nothing else announces a section.** -/
theorem announces_of_mem_placements {i : Image} {p : Placement} (hp : p ∈ i.placements) :
    i.Announces p := by
  have hdevice {t : PlacedToc} (ht : t ∈ i.dtoc.toList) : t ∈ i.tables := List.mem_cons_of_mem _ ht
  rw [placements, List.cons_append, List.cons_append, List.cons_append, List.cons_append,
    List.cons_append, List.cons_append] at hp
  -- The array, the first table, the second one, pointers, and the entries of both tables, in this order.
  rcases List.mem_cons.1 hp with rfl | hp
  · exact .pointerArray
  rcases List.mem_cons.1 hp with rfl | hp
  · exact .table i.itoc List.mem_cons_self
  rcases List.mem_append.1 hp with hp | hp
  · rcases List.mem_append.1 hp with hp | hp
    · rcases List.mem_append.1 hp with hp | hp
      · obtain ⟨t, ht, rfl⟩ := List.mem_map.1 hp
        exact .table t (hdevice ht)
      · obtain ⟨⟨role, code, length?⟩, hrole, hp⟩ := List.mem_filterMap.1 hp
        obtain ⟨index, -, hp⟩ := Option.bind_eq_some_iff.1 hp
        obtain ⟨address, haddress, hp⟩ := Option.bind_eq_some_iff.1 hp
        cases hp
        exact .pointer role code length? hrole index address haddress
    · exact announces_of_mem_entriesOf List.mem_cons_self hp
  · obtain ⟨t, ht, hp⟩ := List.mem_flatMap.1 hp
    exact announces_of_mem_entriesOf (hdevice ht) hp

/-- The codes that pointers lead to are neither that of the pointer array nor those of tables. -/
theorem code_of_mem_pointedTo : ∀ r ∈ pointedTo, r.2.1 ≠ SectionCode.pointers
    ∧ r.2.1 ≠ SectionCode.itoc ∧ r.2.1 ≠ SectionCode.dtoc := by
  simp only [pointedTo, List.forall_mem_cons]
  decide

/-- Only the start of an image announces a pointer array. -/
theorem Announces.eq_of_code {i : Image} {p : Placement} (hp : i.Announces p)
    (hcode : p.code = SectionCode.pointers) :
    p = ⟨SectionCode.pointers, i.pointersOffset, some Pointers.size, .pointerArray, none⟩ := by
  cases hp with
  | pointerArray => rfl
  | table t ht =>
    have hne : ∀ k, tocCode k ≠ SectionCode.pointers := by
      intro k
      cases k <;> decide
    exact absurd hcode (hne t.toc.kind)
  | pointer role code length? hrole index address =>
    exact absurd hcode (code_of_mem_pointedTo _ hrole).1
  | entry t ht e index he =>
    -- An entry has a code of one byte, and that of the pointer array has two.
    have hlt := e.code_lt
    rw [show e.code = _ from hcode] at hlt
    exact absurd hlt (by decide)

/-- Only a table is announced as one. -/
theorem Announces.table_of_code {i : Image} {p : Placement} (hp : i.Announces p)
    (hcode : p.code = SectionCode.itoc ∨ p.code = SectionCode.dtoc) :
    ∃ t ∈ i.tables, p = tableOf t := by
  cases hp with
  | pointerArray =>
    rcases hcode with hcode | hcode <;> cases hcode
  | table t ht => exact ⟨t, ht, rfl⟩
  | pointer role code length? hrole index address =>
    obtain ⟨-, hitoc, hdtoc⟩ := code_of_mem_pointedTo _ hrole
    exact absurd hcode (not_or_intro hitoc hdtoc)
  | entry t ht e index he =>
    have hlt := e.code_lt
    rcases hcode with hcode | hcode <;> rw [show e.code = _ from hcode] at hlt <;>
      exact absurd hlt (by decide)

end Image

end FlashImage
