import FlashImage.Proofs.Bytes.Parts
import FlashImage.Proofs.Image.Sections

/-!
# Sections and gaps tile the image

`Image.sections` may overlap, nest and coincide; `Image.gaps` is computed from them by one walk that
remembers nothing but the furthest end so far. This file says what the walk gives: every position of
the image is either covered by a section or lies in exactly one gap.

The walk is `Image.gapsFrom data pos`, and its invariant is that everything in front of `pos` is done
with: the gaps still to come start at `pos` or later (`Image.range_of_mem_gapsFrom`), and from `pos` on
they hold exactly the positions that the remaining sections leave free (`Image.countP_gapsFrom`). Only
the order of the sections by their start is needed for that.

## Parts

* `Section.Covers` and `Gap.Holds` — a position and a range;
* what a gap is filled with;
* the walk;
* `Tiling`, all of it in one record, and `Image.tiling_of_parse`.
-/

namespace FlashImage

/-! ### Positions -/

/-- A section covers a position of the image. -/
def Section.Covers (s : Section) (p : Nat) : Prop := s.offset ≤ p ∧ p < s.last

instance (s : Section) (p : Nat) : Decidable (s.Covers p) :=
  inferInstanceAs (Decidable (_ ∧ _))

/-- A position of the image lies in a gap. -/
def Gap.Holds (g : Gap) (p : Nat) : Prop := g.first ≤ p ∧ p < g.last

instance (g : Gap) (p : Nat) : Decidable (g.Holds p) :=
  inferInstanceAs (Decidable (_ ∧ _))

/-- Some section of a list covers a position. -/
def Covered (sections : List Section) (p : Nat) : Prop := ∃ s ∈ sections, s.Covers p

instance (sections : List Section) (p : Nat) : Decidable (Covered sections p) :=
  inferInstanceAs (Decidable (∃ s ∈ sections, s.Covers p))

theorem not_covered_nil (p : Nat) : ¬ Covered [] p := by
  simp [Covered]

theorem covered_cons {s : Section} {sections : List Section} {p : Nat} :
    Covered (s :: sections) p ↔ s.Covers p ∨ Covered sections p := by
  simp [Covered]

/-- Sections that all start behind a position do not cover it. -/
theorem not_covered_of_lt {sections : List Section} {p : Nat} (h : ∀ s ∈ sections, p < s.offset) :
    ¬ Covered sections p := by
  rintro ⟨s, hs, hcov⟩
  exact absurd hcov.1 (Nat.not_le.2 (h s hs))

/-! ### What fills a gap -/

/-- A range has a filler if it is not empty and all of its bytes are that one. -/
theorem Gap.fillOf_eq_some_iff {bs : Bytes} {b : UInt8} :
    Gap.fillOf bs = some b ↔ bs ≠ [] ∧ Gap.isFiller b = true ∧ ∀ x ∈ bs, x = b := by
  cases bs with
  | nil => simp [Gap.fillOf]
  | cons c rest =>
    simp only [Gap.fillOf, Option.ite_none_right_eq_some, Option.some.injEq, Bool.and_eq_true,
      List.all_eq_true, decide_eq_true_eq, List.mem_cons, forall_eq_or_imp]
    constructor
    · rintro ⟨⟨hfill, hrest⟩, rfl⟩
      exact ⟨List.cons_ne_nil _ _, hfill, rfl, hrest⟩
    · rintro ⟨-, hfill, rfl, hrest⟩
      exact ⟨⟨hfill, hrest⟩, rfl⟩

/-- The filler of the gap between two offsets, if every byte of the range is that one. -/
theorem Gap.fill_between {data : Bytes} {first last : Nat} (horder : first < last)
    (hlast : last ≤ data.length) (b : UInt8) :
    (Gap.between data first last).fill = some b ↔
      (b = 0x00 ∨ b = 0xff) ∧ ∀ p, first ≤ p → p < last → data[p]? = some b := by
  have hne : data.slice first (last - first) ≠ [] := by
    refine List.ne_nil_of_length_pos ?_
    rw [Bytes.length_slice]
    omega
  rw [Gap.between, Gap.fillOf_eq_some_iff, Bytes.forall_mem_slice_iff hlast]
  simp [hne, Gap.isFiller]

/-! ### The walk -/

namespace Image

/-- **Gaps start where the walk is, or later.** They are not empty, and end inside the image. -/
theorem range_of_mem_gapsFrom {data : Bytes} {sections : List Section} {pos : Nat} {g : Gap}
    (hin : ∀ s ∈ sections, s.last ≤ data.length) (hg : g ∈ gapsFrom data pos sections) :
    pos ≤ g.first ∧ g.first < g.last ∧ g.last ≤ data.length
      ∧ g = .between data g.first g.last := by
  induction sections generalizing pos with
  | nil =>
    simp only [gapsFrom] at hg
    split at hg
    · next hpos =>
      obtain rfl := List.mem_singleton.1 hg
      exact ⟨Nat.le_refl _, hpos, Nat.le_refl _, rfl⟩
    · cases hg
  | cons s rest ih =>
    obtain ⟨hs, hrest⟩ := List.forall_mem_cons.1 hin
    rw [gapsFrom, List.mem_append] at hg
    rcases hg with hg | hg
    · split at hg
      · next hpos =>
        obtain rfl := List.mem_singleton.1 hg
        refine ⟨Nat.le_refl _, hpos, ?_, rfl⟩
        exact Nat.le_trans (Nat.le_add_right _ _) hs
      · cases hg
    · obtain ⟨hfirst, h⟩ := ih hrest hg
      exact ⟨Nat.le_trans (Nat.le_max_left _ _) hfirst, h⟩

/-- No gap holds a position in front of the walk. -/
theorem countP_gapsFrom_of_lt {data : Bytes} {sections : List Section} {pos p : Nat}
    (hin : ∀ s ∈ sections, s.last ≤ data.length) (hp : p < pos) :
    (gapsFrom data pos sections).countP (·.Holds p) = 0 := by
  rw [List.countP_eq_zero]
  intro g hg
  have hfirst := (range_of_mem_gapsFrom hin hg).1
  rw [decide_eq_true_eq]
  intro hholds
  have := hholds.1
  omega

/-- **The invariant of the walk.** From where it is, the gaps to come hold a position once if the
sections to come leave it free, and not at all if they cover it. -/
theorem countP_gapsFrom {data : Bytes} {sections : List Section} {pos p : Nat}
    (hsorted : sections.Pairwise fun s t => s.offset ≤ t.offset)
    (hin : ∀ s ∈ sections, s.last ≤ data.length) (hpos : pos ≤ p) (hp : p < data.length) :
    (gapsFrom data pos sections).countP (·.Holds p) = if Covered sections p then 0 else 1 := by
  induction sections generalizing pos with
  | nil =>
    have hlt : pos < data.length := by omega
    have hholds : (Gap.between data pos data.length).Holds p := ⟨hpos, hp⟩
    rw [if_neg (not_covered_nil p), gapsFrom, if_pos hlt]
    simp [hholds]
  | cons s rest ih =>
    obtain ⟨hs, hrest⟩ := List.forall_mem_cons.1 hin
    obtain ⟨hfirst, hsorted⟩ := List.pairwise_cons.1 hsorted
    have horder : s.offset ≤ s.last := Nat.le_add_right _ _
    rw [gapsFrom, List.countP_append]
    -- The gap in front of `s`, if there is one, ends where `s` starts.
    have hfront : ((if pos < s.offset then [Gap.between data pos s.offset] else []).countP
        (·.Holds p)) = if p < s.offset then 1 else 0 := by
      by_cases hgap : pos < s.offset
      · have hholds : (Gap.between data pos s.offset).Holds p ↔ p < s.offset :=
          ⟨fun h => h.2, fun h => ⟨hpos, h⟩⟩
        rw [if_pos hgap, List.countP_singleton]
        simp only [decide_eq_true_eq, hholds]
      · rw [if_neg hgap, if_neg (by omega)]
        rfl
    rw [hfront]
    by_cases hdone : p < max pos s.last
    · -- `p` is before the end of `s`, and so is decided by `s` alone.
      rw [countP_gapsFrom_of_lt hrest hdone, Nat.add_zero]
      by_cases hcov : p < s.offset
      · have hfree : ¬ Covered (s :: rest) p := by
          refine not_covered_of_lt ?_
          intro t ht
          rcases List.mem_cons.1 ht with rfl | ht
          · exact hcov
          · exact Nat.lt_of_lt_of_le hcov (hfirst t ht)
        rw [if_pos hcov, if_neg hfree]
      · have hcovered : Covered (s :: rest) p :=
          covered_cons.2 (Or.inl ⟨by omega, by omega⟩)
        rw [if_neg hcov, if_pos hcovered]
    · -- `p` is behind `s`, so the rest of the walk decides.
      have hbehind : ¬ s.Covers p := fun h => by have := h.2; omega
      rw [if_neg (by omega), Nat.zero_add, ih hsorted hrest (by omega)]
      simp only [covered_cons, hbehind, false_or]

/-- **A gap ends at a section**, or where the image does. -/
theorem covered_last_of_mem_gapsFrom {data : Bytes} {sections : List Section} {pos : Nat} {g : Gap}
    (hne : ∀ s ∈ sections, s.data ≠ []) (hg : g ∈ gapsFrom data pos sections)
    (hlast : g.last < data.length) : Covered sections g.last := by
  induction sections generalizing pos with
  | nil =>
    simp only [gapsFrom] at hg
    split at hg
    · obtain rfl := List.mem_singleton.1 hg
      exact absurd hlast (Nat.lt_irrefl _)
    · cases hg
  | cons s rest ih =>
    obtain ⟨hs, hrest⟩ := List.forall_mem_cons.1 hne
    rw [gapsFrom, List.mem_append] at hg
    rw [covered_cons]
    rcases hg with hg | hg
    · split at hg
      · obtain rfl := List.mem_singleton.1 hg
        have hlen := List.length_pos_iff.2 hs
        exact Or.inl ⟨Nat.le_refl _, Nat.lt_add_of_pos_right hlen⟩
      · cases hg
    · exact Or.inr (ih hrest hg)

/-- Gaps come in order, each of them before the start of the next. -/
theorem pairwise_gapsFrom {data : Bytes} {sections : List Section} (pos : Nat)
    (hne : ∀ s ∈ sections, s.data ≠ []) (hin : ∀ s ∈ sections, s.last ≤ data.length) :
    (gapsFrom data pos sections).Pairwise fun g h => g.last < h.first := by
  induction sections generalizing pos with
  | nil =>
    simp only [gapsFrom]
    split
    · exact List.pairwise_singleton _ _
    · exact List.Pairwise.nil
  | cons s rest ih =>
    obtain ⟨hs, hne⟩ := List.forall_mem_cons.1 hne
    obtain ⟨-, hin⟩ := List.forall_mem_cons.1 hin
    have hlen := List.length_pos_iff.2 hs
    rw [gapsFrom, List.pairwise_append]
    refine ⟨?_, ih _ hne hin, ?_⟩
    · split
      · exact List.pairwise_singleton _ _
      · exact List.Pairwise.nil
    · intro g hg h hh
      split at hg
      · -- The section lies between its gap and all later ones, and it is not empty.
        obtain rfl := List.mem_singleton.1 hg
        have hfirst := (range_of_mem_gapsFrom hin hh).1
        have : s.offset < s.last := Nat.lt_add_of_pos_right hlen
        exact Nat.lt_of_lt_of_le this (Nat.le_trans (Nat.le_max_right _ _) hfirst)
      · cases hg

end Image

/-! ### The tiling -/

/-- **A byte string is tiled by sections and gaps.** Sections are ranges of it, in order of place, and
gaps are what they leave free: as few ranges as possible, in order, each with its filler. -/
structure Tiling (data : Bytes) (sections : List Section) (gaps : List Gap) : Prop where
  sections_sorted : sections.Pairwise fun s t =>
    s.offset < t.offset ∨ s.offset = t.offset ∧ s.last ≤ t.last
  section_ne_nil : ∀ s ∈ sections, s.data ≠ []
  section_inside : ∀ s ∈ sections, s.last ≤ data.length
  section_data : ∀ s ∈ sections, s.data = data.slice s.offset s.size
  gap_inside : ∀ g ∈ gaps, g.first < g.last ∧ g.last ≤ data.length
  /-- Gaps are in order, and the position behind a gap that is followed by another is covered. -/
  gaps_separated : gaps.Pairwise fun g h => g.last < h.first ∧ Covered sections g.last
  /-- A position is covered, and then in no gap, or free, and then in exactly one. -/
  gaps_exact : ∀ p < data.length, gaps.countP (·.Holds p) = if Covered sections p then 0 else 1
  gap_fill : ∀ g ∈ gaps, ∀ b, g.fill = some b ↔
    (b = 0x00 ∨ b = 0xff) ∧ ∀ p, g.first ≤ p → p < g.last → data[p]? = some b

/-- The sections and gaps of an image tile its bytes. -/
theorem Image.tiling (i : Image) : Tiling i.data i.sections i.gaps where
  sections_sorted := i.pairwise_sections
  section_ne_nil s hs := (place_of_mem_sections hs).1
  section_inside s hs := (place_of_mem_sections hs).2.1
  section_data s hs := (place_of_mem_sections hs).2.2
  gap_inside g hg := by
    have hin := fun s hs => (i.place_of_mem_sections (s := s) hs).2.1
    obtain ⟨-, hpos, hlast, -⟩ := range_of_mem_gapsFrom hin hg
    exact ⟨hpos, hlast⟩
  gaps_separated := by
    have hne := fun s hs => (i.place_of_mem_sections (s := s) hs).1
    have hin := fun s hs => (i.place_of_mem_sections (s := s) hs).2.1
    refine (pairwise_gapsFrom 0 hne hin).imp_of_mem ?_
    intro g h hg hh hgh
    obtain ⟨-, hpos, hlast, -⟩ := range_of_mem_gapsFrom hin hh
    exact ⟨hgh, covered_last_of_mem_gapsFrom hne hg (by omega)⟩
  gaps_exact p hp := by
    have hin := fun s hs => (i.place_of_mem_sections (s := s) hs).2.1
    exact countP_gapsFrom i.pairwise_offset hin (Nat.zero_le p) hp
  gap_fill g hg b := by
    have hin := fun s hs => (i.place_of_mem_sections (s := s) hs).2.1
    obtain ⟨-, hpos, hlast, heq⟩ := range_of_mem_gapsFrom hin hg
    have hfill := Gap.fill_between hpos hlast b
    rwa [← heq] at hfill

/-- **Sections and gaps tile the image**, whatever the sections are: for every byte string that can be
read as an image, its sections are ranges of it in order of place, and its gaps are exactly what they
leave free. -/
theorem Image.tiling_of_parse {data : Bytes} {i : Image} (h : Image.parse data = .ok i) :
    Tiling data i.sections i.gaps := by
  have htiling := i.tiling
  rwa [Image.data_of_parse h] at htiling

/-- The small image has sections that overlap and nest, and is tiled all the same. -/
theorem Image.tiling_of_parse_smallImage :
    ∃ i, Image.parse smallImage = .ok i ∧ Tiling smallImage i.sections i.gaps := by
  obtain ⟨i, h⟩ := exists_parse_smallImage
  exact ⟨i, h, Image.tiling_of_parse h⟩

end FlashImage
