import FlashImage.Extraction
import FlashImage.Proofs.Image.Anchors
import FlashImage.Proofs.Image.Tiling
import FlashImage.Proofs.Metadata.JsonForm

/-!
# The index of an image is read back

Everything that the index of an image counts or measures is a word of 64 bits (`Image.fits_metadata`),
so the index comes back from its file. A byte string in memory is shorter than half of what a word can
count. What is announced in it has an address of 32 bits behind a start that is one of a few, or an
address in dwords, and may well lie behind the end of the image, but not by much.

## Parts

* places and lengths: of announcements, and of sections;
* findings, in the order in which they are listed;
* the index.
-/

namespace FlashImage

/-! ### Places and lengths -/

/-- A pointer leads to an address of 32 bits. -/
theorem Pointers.address?_lt {ps : Pointers} {format : Format} {role : Role} {address : Nat}
    (h : ps.address? format role = some address) : address < 2 ^ 32 := by
  obtain ⟨index, -, h⟩ := Option.bind_eq_some_iff.1 h
  obtain ⟨p, -, h⟩ := Option.bind_eq_some_iff.1 h
  split at h
  · cases h
  · cases h
    exact p.value.toNat_lt

/-- There are sixteen pointers. -/
theorem Pointers.length_records_of_decode {bs : Bytes} {ps : Pointers} (h : decode bs = .ok ps) :
    ps.records.length = count := by
  rw [decode] at h
  split at h
  · cases h
    rw [List.length_map, List.length_range]
  · cases h

theorem TocEntry.address_lt (e : TocEntry) : e.address < 2 ^ 34 := by
  have hlt := e.addressDwords.toNat_lt
  rw [address]
  omega

theorem TocEntry.size_lt (e : TocEntry) : e.size < 2 ^ 34 := by
  have hlt := e.sizeDwords.toNat_lt
  rw [size]
  omega

/-- The entries of a table are part of it. -/
theorem Toc.length_entries_le (t : Toc) : t.entries.length * TocRecord.size ≤ t.size := by
  rw [size, records, List.length_append]
  exact Nat.mul_le_mul_right _ (by omega)

/-- The lengths that structures tell of themselves are words of 64 bits. -/
theorem Image.length_lt_of_mem_pointedTo :
    ∀ r ∈ pointedTo, ∀ bs, ∀ n ∈ r.2.2 bs, n < 2 ^ 64 := by
  simp only [pointedTo, List.forall_mem_cons]
  refine ⟨?_, ?_, ?_, by simp⟩
  · intro bs n hn
    obtain ⟨dwords, -, rfl⟩ := Option.map_eq_some_iff.1 hn
    have hlt := dwords.toNat_lt
    omega
  · intro bs n hn
    cases hn
    decide
  · intro bs n hn
    obtain ⟨dwords, -, rfl⟩ := Option.map_eq_some_iff.1 hn
    have hlt := dwords.toNat_lt
    omega

/-- The contents of a section are part of it. -/
theorem Section.length_payload_le (s : Section) : s.payload.length ≤ s.size := by
  rw [payload]
  split
  · exact List.length_take_le' _ _
  · exact Nat.le_refl _

namespace Image

variable {i : Image}

/-- An image starts in the first 32 megabytes. -/
theorem Anchored.base_lt (hi : i.Anchored) : i.base < 2 ^ 26 := by
  have hall : ∀ o ∈ Magic.searchOffsets, o < 2 ^ 26 := by decide
  exact hall i.base hi.base_mem

/-- A table lies in the image as a whole. -/
theorem size_le_of_mem_tables (hi : i.Anchored) {t : PlacedToc} (ht : t ∈ i.tables) :
    t.address + t.toc.size ≤ i.data.length := by
  obtain ⟨haddress, hdecode⟩ := decode_of_mem_tables hi ht
  have hsize := (Toc.decode_spec hdecode).1
  rw [List.length_drop] at hsize
  omega

/-- **What is announced has a place and a length of 64 bits**, in the image or not. -/
theorem Announces.lt (hi : i.Anchored) (hlen : i.data.length < 2 ^ 63) {p : Placement}
    (hp : i.Announces p) : p.offset < 2 ^ 64 ∧ ∀ n ∈ p.length, n < 2 ^ 64 := by
  -- An announced place is relative to the start, or is that of a table in the image.
  have hbase := hi.base_lt
  cases hp with
  | pointerArray =>
    refine ⟨?_, fun n hn => ?_⟩
    · show i.base + Pointers.offset < 2 ^ 64
      unfold Pointers.offset
      omega
    · cases hn
      decide
  | table t ht =>
    have hsize := size_le_of_mem_tables hi ht
    refine ⟨?_, fun n hn => ?_⟩
    · show t.address < 2 ^ 64
      omega
    · cases hn
      omega
  | pointer role code length? hrole index address haddress =>
    have hlt := Pointers.address?_lt haddress
    refine ⟨?_, length_lt_of_mem_pointedTo _ hrole _⟩
    show i.base + address < 2 ^ 64
    omega
  | entry t ht e index he =>
    have haddress := e.address_lt
    have hsize := e.size_lt
    refine ⟨?_, fun n hn => ?_⟩
    · show i.base + e.address < 2 ^ 64
      omega
    · cases hn
      omega

/-- The bounds of a section are offsets of 64 bits. -/
theorem last_lt_of_mem_sections (hlen : i.data.length < 2 ^ 63) {s : Section} (hs : s ∈ i.sections) :
    s.offset < 2 ^ 64 ∧ s.size < 2 ^ 64 ∧ s.last < 2 ^ 64 := by
  have hlast := (place_of_mem_sections hs).2.1
  unfold Section.size Section.last at *
  omega

end Image

/-! ### Findings -/

/-- A finding that names a single number. -/
theorem Diagnostic.fits_of_numbers {d : Diagnostic} {n : Nat} (hd : d.numbers = [n])
    (hn : n < 2 ^ 64) : d.Fits := by
  rw [Fits, hd]
  exact List.forall_mem_singleton.2 hn

/-- A finding that is made only under a condition. -/
theorem Diagnostic.fits_of_mem_ite {c : Prop} [Decidable c] {d found : Diagnostic}
    (hfound : found.Fits) (hd : d ∈ if c then [found] else []) : d.Fits := by
  obtain ⟨-, hd⟩ := List.mem_ite_nil_right.1 hd
  rw [List.mem_singleton.1 hd]
  exact hfound

/-- What is wrong with an entry is told by its number and its address. -/
theorem Toc.fits_of_mem_entryFindings {kind : TocKind} {index : Nat} {earlier : List (UInt8 × Nat)}
    {e : TocEntry} (hindex : index < 2 ^ 64) {d : Diagnostic}
    (hd : d ∈ entryFindings kind index earlier e) : d.Fits := by
  rw [entryFindings, List.mem_append, List.mem_append, List.mem_append] at hd
  rcases hd with ((hcrc | hduplicate) | horder) | hdevice
  · split at hcrc
    · rw [List.mem_singleton.1 hcrc]
      exact Diagnostic.fits_of_numbers rfl hindex
    · cases hcrc
  · exact Diagnostic.fits_of_mem_ite (Diagnostic.fits_of_numbers rfl hindex) hduplicate
  · split at horder
    · have haddress : e.address < 2 ^ 64 := Nat.lt_trans e.address_lt (by decide)
      refine Diagnostic.fits_of_mem_ite ?_ horder
      simp only [Diagnostic.Fits, Diagnostic.numbers, List.forall_mem_cons]
      exact ⟨hindex, haddress, by simp⟩
    · cases horder
  · exact Diagnostic.fits_of_mem_ite (Diagnostic.fits_of_numbers rfl hindex) hdevice

/-- What is wrong with a table that lies in an image of fewer than `2 ^ 63` bytes. -/
theorem Toc.fits_of_mem_findings {t : Toc} {address length : Nat} (hlen : length < 2 ^ 63)
    (ht : address + t.size ≤ length) {d : Diagnostic}
    (hd : d ∈ t.findings address ++ t.endFindings address length) : d.Fits := by
  have hsize := t.length_entries_le
  unfold TocRecord.size at hsize
  rw [findings, List.mem_append, List.mem_append] at hd
  rcases hd with (hd | hd) | hd
  · rw [headerFindings] at hd
    split at hd
    · rw [List.mem_singleton.1 hd]
      exact Diagnostic.fits_of_numbers rfl (by omega)
    · cases hd
  · obtain ⟨⟨e, index⟩, he, hd⟩ := List.mem_flatMap.1 hd
    have hindex : index < t.entries.length := (List.mem_zipIdx' he).1
    exact fits_of_mem_entryFindings (by omega) hd
  · rw [endFindings] at hd
    split at hd
    · cases hd
    · -- A table without an end is said to need room for one more record.
      rw [List.mem_singleton.1 hd]
      simp only [Diagnostic.Fits, Diagnostic.numbers, List.forall_mem_cons]
      unfold TocRecord.size
      exact ⟨by omega, by omega, by omega, by simp⟩

/-- What is wrong with a table that was read. -/
theorem Toc.fits_of_read {data : Bytes} {address : Nat} {t : Toc} {findings : List Diagnostic}
    (hlen : data.length < 2 ^ 63) (h : Toc.read data address = .ok (t, findings)) :
    ∀ d ∈ findings, d.Fits := by
  obtain ⟨hle, ht, rfl⟩ := of_read h
  have hsize := (Toc.decode_spec ht).1
  rw [List.length_drop] at hsize
  exact fun d hd => Toc.fits_of_mem_findings hlen (by omega) hd

/-- A signature is found missing at the address that was read. -/
theorem Toc.address_of_read {data : Bytes} {address place : Nat} {found : UInt32}
    (h : Toc.read data address = .error (.badSignature place found)) : place = address := by
  rw [Toc.read] at h
  split at h
  · split at h
    · cases h
    · next e _ =>
      cases e <;> cases h
      rfl
  · cases h

namespace Image

variable {i : Image}

/-- What is wrong with the pointers is told by their number. -/
theorem fits_of_mem_pointerFindings (hi : i.Anchored) {d : Diagnostic} (hd : d ∈ i.pointerFindings) :
    d.Fits := by
  obtain ⟨⟨index, status⟩, hbad, hd⟩ := List.mem_filterMap.1 hd
  obtain ⟨⟨p, index'⟩, hp, heq⟩ := List.mem_map.1 (List.mem_filter.1 hbad).1
  obtain ⟨rfl, -⟩ := Prod.mk.inj heq
  have hindex := (List.mem_zipIdx' hp).1
  rw [Pointers.length_records_of_decode hi.pointers] at hindex
  unfold Pointers.count at hindex
  split at hd
  · next heq =>
    cases hd
    obtain ⟨rfl, -⟩ := Prod.mk.inj heq
    exact Diagnostic.fits_of_numbers rfl (by omega)
  · cases hd

/-- The device's table is looked for at an address of 64 bits. -/
theorem dtocAddress?_lt (hi : i.Anchored) (hlen : i.data.length < 2 ^ 63) {address : Nat}
    (h : i.dtocAddress? = some address) : address < 2 ^ 64 := by
  have hbase := hi.base_lt
  rw [dtocAddress?] at h
  split at h
  · next offset hoffset =>
    cases h
    have hlt := Pointers.address?_lt hoffset
    omega
  · split at h
    · obtain rfl := Option.some.inj h
      omega
    · cases h

/-- What is wrong with the table of the device. -/
theorem fits_of_mem_dtocFindings (hi : i.Anchored) (hlen : i.data.length < 2 ^ 63) {d : Diagnostic}
    (hd : d ∈ i.dtocFindings) : d.Fits := by
  unfold dtocFindings at hd
  cases haddress : i.dtocAddress? with
  | none =>
    rw [readDtoc, haddress] at hd
    cases hd
  | some address =>
  have hlt := dtocAddress?_lt hi hlen haddress
  have hbad {found : UInt32} (hd : d = badDtoc address found) : d.Fits := by
    rw [hd]
    exact Diagnostic.fits_of_numbers rfl hlt
  rw [readDtoc, haddress] at hd
  -- Whether a pointer leads there decides what is reported, but not its place.
  generalize (i.pointers.address? i.format .dtoc).isSome = pointed at hd
  simp only [Option.map_some] at hd
  cases hread : Toc.read i.data address with
  | ok result =>
    obtain ⟨toc, findings⟩ := result
    simp only [hread] at hd
    split at hd
    · exact Toc.fits_of_read hlen hread d hd
    · split at hd
      · exact hbad (List.mem_singleton.1 hd)
      · cases hd
  | error e =>
    simp only [hread] at hd
    split at hd
    · cases hd
    · cases e with
      | badSignature place found =>
        obtain rfl := Toc.address_of_read hread
        exact hbad (List.mem_singleton.1 hd)
      | truncated place size =>
        rw [List.mem_singleton.1 hd]
        exact Diagnostic.fits_of_numbers rfl hlt

/-- What is wrong with the contents of a section is told by its place. -/
theorem fits_of_mem_sectionFindings [Algorithms] {s : Section} (hs : s.offset < 2 ^ 64)
    {d : Diagnostic} (hd : d ∈ s.findings) : d.Fits := by
  rw [Section.findings, List.mem_append] at hd
  rcases hd with hunknown | hfailure
  · exact Diagnostic.fits_of_mem_ite (Diagnostic.fits_of_numbers rfl hs) hunknown
  · split at hfailure
    · cases hfailure
    · split at hfailure
      · cases hfailure
      · rw [List.mem_singleton.1 hfailure]
        exact Diagnostic.fits_of_numbers rfl hs

/-- What is wrong with an announced section. -/
theorem fits_of_mem_placementFindings [Algorithms] (hi : i.Anchored) (hlen : i.data.length < 2 ^ 63)
    {p : Placement} (hp : p ∈ i.placements) {d : Diagnostic}
    (hd : d ∈ p.findings i.data i.encrypted) : d.Fits := by
  obtain ⟨hoffset, hlength⟩ := (announces_of_mem_placements hp).lt hi hlen
  have hcut {length : Nat} (hlt : length < 2 ^ 64) (hd : d ∈ [p.cutOff i.data length]) : d.Fits := by
    rw [List.mem_singleton.1 hd]
    simp only [Diagnostic.Fits, Placement.cutOff, Diagnostic.numbers, List.forall_mem_cons]
    exact ⟨hoffset, hlt, by omega, by simp⟩
  rw [Placement.findings] at hd
  split at hd
  · exact hcut (by decide) hd
  · next length heq =>
    split at hd
    · cases hd
    · split at hd
      · exact fits_of_mem_sectionFindings hoffset hd
      · exact hcut (hlength length heq) hd

/-- Overlaps are told by the bounds of sections. -/
theorem fits_of_mem_overlapsFrom {sections : List Section} {furthest : Option Section}
    (hfurthest : ∀ p ∈ furthest, p.offset < 2 ^ 64 ∧ p.last < 2 ^ 64)
    (h : ∀ s ∈ sections, s.offset < 2 ^ 64 ∧ s.last < 2 ^ 64) {d : Diagnostic}
    (hd : d ∈ overlapsFrom furthest sections) : d.Fits := by
  induction sections generalizing furthest with
  | nil => cases hd
  | cons s rest ih =>
    obtain ⟨hs, hrest⟩ := List.forall_mem_cons.1 h
    cases furthest with
    | none =>
      refine ih ?_ hrest hd
      rintro p hp
      cases hp
      exact hs
    | some p =>
      have hp := hfurthest p rfl
      rw [overlapsFrom, List.mem_append] at hd
      rcases hd with hoverlap | hd
      · refine Diagnostic.fits_of_mem_ite ?_ hoverlap
        simp only [Diagnostic.Fits, Diagnostic.numbers, List.forall_mem_cons]
        exact ⟨hp.1, hp.2, hs.1, hs.2, by simp⟩
      · -- Whichever of the two ends last, its bounds are words.
        refine ih ?_ hrest hd
        rintro q hq
        cases hq
        split
        · exact hs
        · exact hp

/-- **All that an image is found to be wrong with is told in words of 64 bits.** -/
theorem fits_of_mem_diagnostics [Algorithms] (hi : i.Anchored) (hlen : i.data.length < 2 ^ 63)
    {d : Diagnostic} (hd : d ∈ i.diagnostics) : d.Fits := by
  have hplace {s : Section} (hs : s ∈ i.sections) : s.offset < 2 ^ 64 ∧ s.last < 2 ^ 64 := by
    obtain ⟨hoffset, -, hlast⟩ := last_lt_of_mem_sections hlen hs
    exact ⟨hoffset, hlast⟩
  unfold diagnostics at hd
  simp only [List.mem_append] at hd
  -- The findings in the order in which they are listed.
  rcases hd with ((((hd | hd) | hd) | hd) | hd) | hd
  · exact fits_of_mem_pointerFindings hi hd
  · have hsize := size_le_of_mem_tables hi (List.mem_cons_self : i.itoc ∈ i.tables)
    exact Toc.fits_of_mem_findings hlen hsize hd
  · exact fits_of_mem_dtocFindings hi hlen hd
  · obtain ⟨p, hp, hd⟩ := List.mem_flatMap.1 hd
    exact fits_of_mem_placementFindings hi hlen hp hd
  · -- The walk starts without a section to compare with.
    refine fits_of_mem_overlapsFrom ?_ (fun s hs => hplace hs) hd
    rintro p hp
    cases hp
  · obtain ⟨s, hs, hd⟩ := List.mem_flatMap.1 hd
    rw [crcFindings] at hd
    split at hd
    · cases hd
    · split at hd
      · rw [List.mem_singleton.1 hd]
        exact Diagnostic.fits_of_numbers rfl (hplace hs).1
      · cases hd

/-! ### The index -/

/-- A table in an image of fewer than `2 ^ 63` bytes has far fewer entries. -/
theorem length_entries_lt (hi : i.Anchored) (hlen : i.data.length < 2 ^ 63) {t : PlacedToc}
    (ht : t ∈ i.tables) : t.toc.entries.length < 2 ^ 58 := by
  have hsize := size_le_of_mem_tables hi ht
  have hentries := t.toc.length_entries_le
  unfold TocRecord.size at hentries
  omega

/-- Sections can be numbered by words of 64 bits. -/
theorem length_sections_lt (hi : i.Anchored) (hlen : i.data.length < 2 ^ 63) :
    i.sections.length < 2 ^ 63 := by
  -- No section without an announcement.
  have hannounced : i.sections.length ≤ i.placements.length := by
    rw [sections, List.length_mergeSort]
    exact List.length_filterMap_le _ _
  have hpointers : i.pointerPlacements.length ≤ pointedTo.length := List.length_filterMap_le _ _
  have hthree : pointedTo.length = 3 := rfl
  have hitoc := length_entries_lt hi hlen (t := i.itoc) List.mem_cons_self
  cases hdtoc : i.dtoc with
  | none =>
    simp only [placements, hdtoc, entriesOf, Option.toList_none, List.map_nil, List.flatMap_nil,
      List.length_append, List.length_cons, List.length_nil, List.length_map,
      List.length_zipIdx] at hannounced
    omega
  | some t =>
    have hdevice := length_entries_lt hi hlen (t := t)
      (List.mem_cons_of_mem _ (Option.mem_toList.2 hdtoc))
    simp only [placements, hdtoc, entriesOf, Option.toList_some, List.map_cons, List.map_nil,
      List.flatMap_singleton, List.length_append, List.length_cons, List.length_nil,
      List.length_map, List.length_zipIdx] at hannounced
    omega

/-- The record of a section. -/
theorem fits_ofSection [Algorithms] (hlen : i.data.length < 2 ^ 63) {s : Section}
    (hs : s ∈ i.sections) (fileName jsonFile : Option String) :
    (SectionRecord.ofSection s fileName jsonFile).Fits := by
  obtain ⟨hoffset, hsize, -⟩ := last_lt_of_mem_sections hlen hs
  exact ⟨hoffset, Nat.lt_of_le_of_lt s.length_payload_le hsize, hsize⟩

/-- A gap in the layout. -/
theorem fits_of_mem_gapPieces (hlen : i.data.length < 2 ^ 63) {p : GapPiece}
    (hp : p ∈ Extraction.gapPieces i.data i.gaps) : p.layoutEntry.Fits := by
  obtain ⟨⟨g, n⟩, hg, rfl⟩ := List.mem_map.1 hp
  obtain ⟨hfirst, hlast⟩ := i.tiling.gap_inside g (List.fst_mem_of_mem_zipIdx hg)
  have hsize : g.size < 2 ^ 64 := by
    rw [Gap.size]
    omega
  simp only [GapPiece.ofGap, GapPiece.layoutEntry, LayoutEntry.Fits, LayoutEntry.numbers,
    List.forall_mem_cons]
  exact ⟨by omega, by omega, hsize, by simp⟩

/-- **The index of an image meets what its JSON form asks for.** -/
theorem fits_metadata [Algorithms] (hi : i.Anchored) (hlen : i.data.length < 2 ^ 63)
    (keepBinary : Bool) : (i.extract keepBinary).metadata.Fits where
  image := Nat.lt_trans hlen (by decide)
  anchor := by
    have hbase := hi.base_lt
    have hall : ∀ o ∈ Magic.searchOffsets, o < 2 ^ 64 := by decide
    refine ⟨?_, hall⟩
    show i.base < 2 ^ 64
    omega
  pointers := by
    have hbase := hi.base_lt
    refine ⟨?_, fun r hr => ?_⟩
    · show i.base + Pointers.offset < 2 ^ 64
      unfold Pointers.offset
      omega
    · obtain ⟨⟨p, n⟩, hp, rfl⟩ := List.mem_map.1 hr
      have hindex := (List.mem_zipIdx' hp).1
      rw [Pointers.length_records_of_decode hi.pointers] at hindex
      exact Nat.lt_trans hindex (by decide)
  itoc := Nat.lt_of_le_of_lt hi.itoc_address (by omega)
  dtoc := by
    intro t ht
    obtain ⟨t, hdtoc, rfl⟩ := Option.map_eq_some_iff.1 ht
    have htable : t ∈ i.tables := List.mem_cons_of_mem _ (Option.mem_toList.2 hdtoc)
    exact Nat.lt_of_le_of_lt (decode_of_mem_tables hi htable).1 (by omega)
  sections := by
    intro r hr
    obtain ⟨p, hp, rfl⟩ := List.mem_map.1 hr
    obtain ⟨⟨s, n⟩, hs, rfl⟩ := List.mem_map.1 hp
    exact fits_ofSection hlen (List.fst_mem_of_mem_zipIdx hs) _ _
  layout := by
    intro e he
    rcases List.mem_append.1 (List.mem_mergeSort.1 he) with he | he
    · obtain ⟨⟨p, n⟩, hpn, rfl⟩ := List.mem_map.1 he
      -- Numbers of sections are bounded by how many there are.
      have hcount := (List.mem_zipIdx' hpn).1
      obtain ⟨⟨s, m⟩, hsm, rfl⟩ := List.mem_map.1 (List.fst_mem_of_mem_zipIdx hpn)
      have hs : s ∈ i.sections := List.fst_mem_of_mem_zipIdx hsm
      obtain ⟨hoffset, hsize, hlast⟩ := last_lt_of_mem_sections hlen hs
      have hsections := length_sections_lt hi hlen
      rw [Extraction.sectionPieces, List.length_map, List.length_zipIdx] at hcount
      simp only [SectionPiece.layoutEntry, SectionPiece.ofSection, LayoutEntry.Fits,
        LayoutEntry.numbers, List.forall_mem_cons]
      exact ⟨by omega, hoffset, hlast, hsize, by simp⟩
    · obtain ⟨p, hp, rfl⟩ := List.mem_map.1 he
      exact fits_of_mem_gapPieces hlen hp
  boundaries := by
    have hsector : Image.sectorSize < 2 ^ 64 := by decide
    exact ⟨Nat.two_pow_pos 64, Nat.lt_trans hlen (by decide), hsector⟩
  diagnostics := fun d hd => fits_of_mem_diagnostics hi hlen hd

end Image

end FlashImage
