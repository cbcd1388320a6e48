import FlashImage.Proofs.Repack.Identity

/-!
# The index of an extraction is faithful

An image is put together from the index alone, so the index has to say the same before and after it was
text, and its layout has to be the image. The layout is made of the sections in their order followed by the
gaps in theirs, and then sorted by start. Sorting keeps what is in order already (`filter_mergeSort`), so in
the layout the sections, for themselves, are still the sections of the image one by one, whichever of them
start together (`Image.sectionEntries_layout`), and the gaps its gaps (`Image.gapEntries_layout`).
-/

namespace FlashImage

/-- **Sorting keeps the order of what is in order**: if the elements of some kind stand in order already, they
are the same, taken for themselves, before and after. -/
theorem filter_mergeSort {α : Type} {le : α → α → Bool}
    (trans : ∀ a b c, le a b = true → le b c = true → le a c = true)
    (total : ∀ a b, (le a b || le b a) = true) {q : α → Bool} {l kept : List α} (hkept : l.filter q = kept)
    (hsorted : kept.Pairwise fun a b => le a b = true) : (l.mergeSort le).filter q = kept := by
  subst hkept
  have hsub : (l.filter q).Sublist (l.mergeSort le) :=
    List.sublist_mergeSort trans total hsorted List.filter_sublist
  -- They are all there, in their order, and there are no others.
  have hfiltered : (l.filter q).Sublist ((l.mergeSort le).filter q) := by
    have hsub := hsub.filter q
    rwa [List.filter_filter, show (fun a => q a && q a) = q from funext fun a => Bool.and_self _] at hsub
  exact (hfiltered.eq_of_length ((List.mergeSort_perm l le).filter q).length_eq.symm).symm

/-- What an optional function gives comes of the elements that it gives something for. -/
theorem filterMap_eq_filterMap_filter {α β : Type} (f : α → Option β) (l : List α) :
    l.filterMap f = (l.filter fun a => (f a).isSome).filterMap f := by
  rw [List.filterMap_filter]
  refine List.filterMap_congr fun a _ => ?_
  cases f a <;> rfl

namespace LayoutEntry

/-- The number of the section that a piece is. -/
def sectionIndex? : LayoutEntry → Option Nat
  | .section index _ _ _ _ => some index
  | .gap .. => none

/-- The gap that a piece is. -/
def gap? : LayoutEntry → Option Gap
  | .section .. => none
  | .gap first last _ fill _ => some ⟨first, last, fill⟩

/-- The section with a number in its image, as a piece of the layout. -/
def ofSection (s : Section) (index : Nat) : LayoutEntry := .section index s.name s.offset s.last s.size

/-- The gap with a number in an image of `imageSize` bytes, as a piece of the layout. -/
def ofGap (imageSize : Nat) (g : Gap) (number : Nat) : LayoutEntry :=
  .gap g.first g.last g.size g.fill (GapPiece.nameOf number g imageSize)

/-- By the start of pieces, any two are in order one way or the other. -/
theorem total_first (a b : LayoutEntry) :
    (decide (a.first ≤ b.first) || decide (b.first ≤ a.first)) = true := by
  simpa using Nat.le_total a.first b.first

theorem trans_first (a b c : LayoutEntry) (hab : decide (a.first ≤ b.first) = true)
    (hbc : decide (b.first ≤ c.first) = true) : decide (a.first ≤ c.first) = true :=
  decide_eq_true (Nat.le_trans (of_decide_eq_true hab) (of_decide_eq_true hbc))

end LayoutEntry

namespace Image

/-- Gaps start one after the other. -/
theorem pairwise_gaps (i : Image) : i.gaps.Pairwise fun g h => g.first < h.first := by
  refine i.tiling.gaps_separated.imp_of_mem ?_
  intro g h hg _ hseparated
  exact Nat.lt_trans (i.tiling.gap_inside g hg).1 hseparated.1

section

variable [Algorithms] {i : Image} {keepBinary : Bool}

/-! ### The layout -/

/-- The layout is sorted: first the sections of the image, then its gaps. -/
theorem layout_eq : (i.extract keepBinary).metadata.layout
    = ((i.sections.zipIdx.map fun x => LayoutEntry.ofSection x.1 x.2)
      ++ i.gaps.zipIdx.map fun x => LayoutEntry.ofGap i.data.length x.1 x.2).mergeSort
        fun a b => a.first ≤ b.first := by
  have hsections : ((i.pieces keepBinary).zipIdx.map fun x => SectionPiece.layoutEntry x.1 x.2)
      = i.sections.zipIdx.map fun x => LayoutEntry.ofSection x.1 x.2 := by
    ext1 n
    simp only [List.getElem?_map, List.getElem?_zipIdx, Extraction.sectionPieces, Nat.zero_add]
    cases i.sections[n]? <;> rfl
  have hgaps : (Extraction.gapPieces i.data i.gaps).map GapPiece.layoutEntry
      = i.gaps.zipIdx.map fun x => LayoutEntry.ofGap i.data.length x.1 x.2 := by
    rw [Extraction.gapPieces, List.map_map]
    rfl
  rw [← hsections, ← hgaps]
  rfl

/-- **The layout is sorted by start.** -/
theorem pairwise_layout :
    (i.extract keepBinary).metadata.layout.Pairwise fun e f => e.first ≤ f.first := by
  rw [layout_eq]
  exact (List.pairwise_mergeSort LayoutEntry.trans_first LayoutEntry.total_first _).imp of_decide_eq_true

/-- **The sections in the layout are those of the image**, in their order. -/
theorem sectionEntries_layout :
    (i.extract keepBinary).metadata.layout.filter (fun e => e.sectionIndex?.isSome)
      = i.sections.zipIdx.map fun x => LayoutEntry.ofSection x.1 x.2 := by
  have hsorted := i.pairwise_offset
  rw [← List.zipIdx_map_fst 0 i.sections, List.pairwise_map] at hsorted
  rw [layout_eq]
  refine filter_mergeSort LayoutEntry.trans_first LayoutEntry.total_first ?_ ?_
  · simp [List.filter_map, Function.comp_def, LayoutEntry.ofSection, LayoutEntry.ofGap,
      LayoutEntry.sectionIndex?]
  · exact List.pairwise_map.2 (hsorted.imp fun h => decide_eq_true h)

/-- **The gaps in the layout are those of the image**, in their order. -/
theorem gapEntries_layout :
    (i.extract keepBinary).metadata.layout.filter (fun e => e.gap?.isSome)
      = i.gaps.zipIdx.map fun x => LayoutEntry.ofGap i.data.length x.1 x.2 := by
  have hsorted := i.pairwise_gaps
  rw [← List.zipIdx_map_fst 0 i.gaps, List.pairwise_map] at hsorted
  rw [layout_eq]
  refine filter_mergeSort LayoutEntry.trans_first LayoutEntry.total_first ?_ ?_
  · simp [List.filter_map, Function.comp_def, LayoutEntry.ofSection, LayoutEntry.ofGap, LayoutEntry.gap?]
  · exact List.pairwise_map.2 (hsorted.imp fun h => decide_eq_true (Nat.le_of_lt h))

/-! ### The result -/

/-- **The index of an extraction is faithful.** -/
structure FaithfulIndex (i : Image) (keepBinary : Bool) : Prop where
  /-- The text that is stored reads as the very index. -/
  readBack : ∃ text, (i.extract keepBinary).files.get? Metadata.fileName = some text ∧
    (Json.parse? text).bind Metadata.ofJson? = some (i.extract keepBinary).metadata
  size_eq : (i.extract keepBinary).metadata.image.size = i.data.length
  layout_sorted : (i.extract keepBinary).metadata.layout.Pairwise fun e f => e.first ≤ f.first
  /-- Among the pieces of the layout are the sections, in the order that they have in the image. -/
  sectionEntries : (i.extract keepBinary).metadata.layout.filter (fun e => e.sectionIndex?.isSome)
    = i.sections.zipIdx.map fun x => LayoutEntry.ofSection x.1 x.2
  /-- The others are the gaps, in their order. -/
  gapEntries : (i.extract keepBinary).metadata.layout.filter (fun e => e.gap?.isSome)
    = i.gaps.zipIdx.map fun x => LayoutEntry.ofGap i.data.length x.1 x.2
  /-- The layout has the number of each record once, and no other number. -/
  section_once : (i.extract keepBinary).metadata.layout.filterMap LayoutEntry.sectionIndex?
    = List.range (i.extract keepBinary).metadata.sections.length
  /-- The layout has each gap once, and no other gap. -/
  gap_once : (i.extract keepBinary).metadata.layout.filterMap LayoutEntry.gap? = i.gaps ∧ i.gaps.Nodup
  /-- The pieces leave no position of the image out, and none of them reaches out of it. -/
  covers : ∀ p, (∃ e ∈ (i.extract keepBinary).metadata.layout, e.Holds p) ↔
    p < (i.extract keepBinary).metadata.image.size

/-- **The index of an extraction is faithful**, for every image in memory, whether or not the sections that
have a JSON form are kept as bytes as well. -/
theorem faithfulIndex_of_parse {data : Bytes} (hparse : Image.parse data = .ok i)
    (hlen : data.length < 2 ^ 63) (keepBinary : Bool) : i.FaithfulIndex keepBinary := by
  obtain ⟨rfl, hi⟩ := anchored_of_parse hparse
  refine ⟨⟨_, (i.nothingOverwritten keepBinary).index,
      Metadata.ofJson?_parse?_pretty (fits_metadata hi hlen keepBinary)⟩, rfl, pairwise_layout,
    sectionEntries_layout, gapEntries_layout, ?_, ⟨?_, ?_⟩, fun p => ⟨?_, exists_mem_layout_holds⟩⟩
  · calc (i.extract keepBinary).metadata.layout.filterMap LayoutEntry.sectionIndex?
        = ((i.extract keepBinary).metadata.layout.filter fun e => e.sectionIndex?.isSome).filterMap
            LayoutEntry.sectionIndex? := filterMap_eq_filterMap_filter _ _
      _ = (i.sections.zipIdx.map fun x => LayoutEntry.ofSection x.1 x.2).filterMap
            LayoutEntry.sectionIndex? := by rw [sectionEntries_layout]
      _ = i.sections.zipIdx.map Prod.snd := by
        rw [List.filterMap_map, ← List.filterMap_eq_map]
        rfl
      _ = List.range i.sections.length := by rw [List.zipIdx_map_snd, List.range_eq_range']
      _ = List.range (i.extract keepBinary).metadata.sections.length := by
        rw [(i.nothingOverwritten keepBinary).length_records]
  · calc (i.extract keepBinary).metadata.layout.filterMap LayoutEntry.gap?
        = ((i.extract keepBinary).metadata.layout.filter fun e => e.gap?.isSome).filterMap
            LayoutEntry.gap? := filterMap_eq_filterMap_filter _ _
      _ = (i.gaps.zipIdx.map fun x => LayoutEntry.ofGap i.data.length x.1 x.2).filterMap
            LayoutEntry.gap? := by rw [gapEntries_layout]
      _ = i.gaps.zipIdx.map Prod.fst := by
        rw [List.filterMap_map, ← List.filterMap_eq_map]
        rfl
      _ = i.gaps := List.zipIdx_map_fst 0 i.gaps
  · refine i.pairwise_gaps.imp ?_
    rintro g h hlt rfl
    exact Nat.lt_irrefl _ hlt
  · -- Sections and gaps end inside of the image.
    rintro ⟨e, he, hholds⟩
    rcases mem_layout.1 he with ⟨q, n, hq, rfl⟩ | ⟨q, hq, rfl⟩
    · obtain ⟨s, hs, base, rfl⟩ := exists_of_getElem?_pieces hq
      exact Nat.lt_of_lt_of_le hholds.2 (place_of_mem_sections hs).2.1
    · obtain ⟨⟨g, n⟩, hgn, rfl⟩ := List.mem_map.1 hq
      exact Nat.lt_of_lt_of_le hholds.2 (i.tiling.gap_inside g (List.fst_mem_of_mem_zipIdx hgn)).2

end

/-- The index of the small image is faithful. -/
theorem faithfulIndex_of_parse_smallImage : ∃ i, Image.parse smallImage = .ok i ∧
    smallImage.length < 2 ^ 63 ∧ @FaithfulIndex .standard i false ∧ @FaithfulIndex .standard i true := by
  obtain ⟨i, h⟩ := exists_parse_smallImage
  have hlen : smallImage.length < 2 ^ 63 := by decide +kernel
  exact ⟨i, h, hlen, @faithfulIndex_of_parse .standard i smallImage h hlen false,
    @faithfulIndex_of_parse .standard i smallImage h hlen true⟩

end Image

end FlashImage
