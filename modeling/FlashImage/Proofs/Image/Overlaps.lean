import FlashImage.Proofs.Image.Checks
import FlashImage.Proofs.Image.Tiling
import Mathlib.Data.List.Forall2

/-!
# Overlaps are found by the furthest section

Sections are looked through by place, and of those that were passed only the one that ends last is
remembered (`Image.overlapsFrom`). That is enough. The sections in front of a section start no later than
it does, so one of them shares a byte with it only if it ends behind the start of the section, and then the
one that ends last does so too and shares that byte (`Furthest.overlaps_iff`). It does not matter how many
sections lie in between or end before.

So each section that shares a byte with an earlier one is reported once, together with an earlier section
that it does share a byte with (`Image.forall₂_overlapsFrom`). There is nothing to report if each section
ends where the next one starts, or before.

## Parts

* sections that share a byte;
* the section that ends last;
* overlaps among the findings, and `Image.overlapsReported`.
-/

namespace FlashImage

/-! ### Sections that share a byte -/

/-- **Two sections share a byte**: some position of the image lies in both of them. -/
def Section.SharesByte (s t : Section) : Prop := ∃ p, s.Covers p ∧ t.Covers p

/-- Ranges share a position if the later start lies before the earlier end. -/
theorem Section.sharesByte_iff {s t : Section} :
    s.SharesByte t ↔ max s.offset t.offset < min s.last t.last := by
  constructor
  · rintro ⟨p, ⟨hsfirst, hslast⟩, htfirst, htlast⟩
    omega
  · intro h
    exact ⟨max s.offset t.offset, ⟨by omega, by omega⟩, by omega, by omega⟩

instance (s t : Section) : Decidable (s.SharesByte t) := decidable_of_iff _ Section.sharesByte_iff.symm

/-- A section ends where another one starts, or before. -/
def Section.EndsBefore (s t : Section) : Prop := s.last ≤ t.offset

/-- No section ends before it starts, so what ends before it ends before all that it ends before. -/
instance : Trans Section.EndsBefore Section.EndsBefore Section.EndsBefore where
  trans {s t u} hst htu := by
    have hrange : t.offset ≤ t.last := Nat.le_add_right _ _
    unfold Section.EndsBefore at *
    omega

/-- **A section overlaps an earlier one**: the section at a position of a list shares a byte with one of
those in front of it. -/
def OverlapsEarlier (sections : List Section) (n : Nat) : Prop :=
  ∃ t ∈ sections[n]?, ∃ s ∈ sections.take n, s.SharesByte t

instance (sections : List Section) (n : Nat) : Decidable (OverlapsEarlier sections n) :=
  inferInstanceAs (Decidable (∃ t ∈ sections[n]?, ∃ s ∈ sections.take n, s.SharesByte t))

/-- **A finding that names an overlap** of the section at a position with one of those in front of it, by
the names and ranges of both. -/
def NamesOverlap (sections : List Section) (n : Nat) (d : Diagnostic) : Prop :=
  ∃ t ∈ sections[n]?, ∃ s ∈ sections.take n, s.SharesByte t ∧
    d = .sectionOverlap s.name (s.offset, s.last) t.name (t.offset, t.last)

/-- Sections one behind the other by their start, each with some byte. -/
structure InPlace (sections : List Section) : Prop where
  sorted : sections.Pairwise fun s t => s.offset ≤ t.offset
  nonempty : ∀ s ∈ sections, s.offset < s.last

/-! ### The section that ends last -/

/-- **The section that ends last** of those that were passed. -/
structure Furthest (passed : List Section) (p : Section) : Prop where
  mem : p ∈ passed
  last_le : ∀ s ∈ passed, s.last ≤ p.last

namespace Furthest

variable {passed rest : List Section} {p t : Section}

/-- A section that was passed takes the place of the one that ended last, if it ends later. -/
theorem concat (h : Furthest passed p) (t : Section) :
    Furthest (passed ++ [t]) (if p.last < t.last then t else p) := by
  split
  · next hlater =>
    refine ⟨List.mem_append_right passed (List.mem_singleton_self t), fun s hs => ?_⟩
    rcases List.mem_append.1 hs with hs | hs
    · exact Nat.le_trans (h.last_le s hs) (Nat.le_of_lt hlater)
    · rw [List.mem_singleton.1 hs]
  · next hearlier =>
    refine ⟨List.mem_append_left [t] h.mem, fun s hs => ?_⟩
    rcases List.mem_append.1 hs with hs | hs
    · exact h.last_le s hs
    · rw [List.mem_singleton.1 hs]
      exact Nat.le_of_not_lt hearlier

/-- **The section that ends last shares a byte** with the next one if it ends behind its start. -/
theorem sharesByte (h : Furthest passed p) (hplace : InPlace (passed ++ t :: rest))
    (hlast : t.offset < p.last) : p.SharesByte t := by
  have hstart : p.offset ≤ t.offset :=
    (List.pairwise_append.1 hplace.sorted).2.2 p h.mem t List.mem_cons_self
  have hbyte := hplace.nonempty t (List.mem_append_right passed List.mem_cons_self)
  exact ⟨t.offset, ⟨hstart, hlast⟩, Nat.le_refl _, hbyte⟩

/-- **A section overlaps one that was passed** if the one that ends last ends behind its start. -/
theorem overlaps_iff (h : Furthest passed p) (hplace : InPlace (passed ++ t :: rest)) :
    OverlapsEarlier (passed ++ t :: rest) passed.length ↔ t.offset < p.last := by
  have hnext : (passed ++ t :: rest)[passed.length]? = some t := by simp
  rw [OverlapsEarlier, hnext, List.take_left]
  constructor
  · rintro ⟨t', ht', s, hs, q, hsq, htq⟩
    obtain rfl := Option.some.inj ht'
    have hfurthest := h.last_le s hs
    have hend := hsq.2
    have hstart := htq.1
    omega
  · intro hlast
    exact ⟨t, rfl, p, h.mem, h.sharesByte hplace hlast⟩

end Furthest

namespace Image

/-- **What is reported of the sections still to come**: a finding for each position with an overlap, in
order, that names it. -/
theorem forall₂_overlapsFrom {passed rest : List Section} {p : Section} (h : Furthest passed p)
    (hplace : InPlace (passed ++ rest)) :
    List.Forall₂ (NamesOverlap (passed ++ rest))
      ((List.range' passed.length rest.length).filter (OverlapsEarlier (passed ++ rest)))
      (overlapsFrom (some p) rest) := by
  -- The invariant is that `p` ends last of what was passed; `passed ++ rest` stays the same list.
  induction rest generalizing passed p with
  | nil => exact .nil
  | cons t rest ih =>
    have hmore : passed ++ t :: rest = (passed ++ [t]) ++ rest := by rw [List.append_assoc]; rfl
    have hlater := ih (h.concat t) (hmore ▸ hplace)
    rw [← hmore, List.length_append, List.length_singleton] at hlater
    rw [List.length_cons, List.range'_succ, List.filter_cons, overlapsFrom]
    by_cases hlast : t.offset < p.last
    · have hnames : NamesOverlap (passed ++ t :: rest) passed.length
          (.sectionOverlap p.name (p.offset, p.last) t.name (t.offset, t.last)) := by
        refine ⟨t, by simp, p, ?_, h.sharesByte hplace hlast, rfl⟩
        rw [List.take_left]
        exact h.mem
      rw [if_pos (decide_eq_true ((h.overlaps_iff hplace).2 hlast)), if_pos hlast]
      exact .cons hnames hlater
    · have hnone : ¬ OverlapsEarlier (passed ++ t :: rest) passed.length :=
        fun hoverlap => hlast ((h.overlaps_iff hplace).1 hoverlap)
      rw [if_neg (by simpa using hnone), if_neg hlast]
      exact hlater

/-- **What is reported of all sections.** The first one has none in front of it. -/
theorem forall₂_overlaps {sections : List Section} (hplace : InPlace sections) :
    List.Forall₂ (NamesOverlap sections)
      ((List.range sections.length).filter (OverlapsEarlier sections)) (overlaps sections) := by
  cases sections with
  | nil => exact .nil
  | cons t rest =>
    have hfirst : Furthest [t] t := ⟨List.mem_singleton_self t, fun s hs => by rw [List.mem_singleton.1 hs]⟩
    have hnone : ¬ OverlapsEarlier (t :: rest) 0 := by
      rintro ⟨-, -, s, hs, -⟩
      cases hs
    have hrest := forall₂_overlapsFrom hfirst (show InPlace ([t] ++ rest) from hplace)
    rw [List.range_eq_range', List.length_cons, List.range'_succ, List.filter_cons,
      if_neg (by simpa using hnone)]
    exact hrest

-- A short section and a later one, both inside a long one, and one behind it.
example (origin : Origin) :
    let part (offset size : Nat) : Section := ⟨0x7f, offset, List.replicate size 0, origin, none, false⟩
    (overlaps [part 0 16, part 2 4, part 8 4, part 16 4]).length = 2 := rfl

end Image

/-! ### Overlaps among the findings -/

/-- Whether a finding is about an overlap of sections. -/
def Diagnostic.isSectionOverlap : Diagnostic → Bool
  | sectionOverlap .. => true
  | _ => false

/-- Nothing that is wrong with a table is an overlap. -/
theorem Toc.filter_isSectionOverlap_findings (t : Toc) (address imageSize : Nat) :
    (t.findings address ++ t.endFindings address imageSize).filter Diagnostic.isSectionOverlap = [] := by
  have hheader : (t.headerFindings address).filter Diagnostic.isSectionOverlap = [] := by
    rw [headerFindings]
    split <;> rfl
  have hend : (t.endFindings address imageSize).filter Diagnostic.isSectionOverlap = [] := by
    rw [endFindings]
    split <;> rfl
  have hentry (index : Nat) (earlier : List (UInt8 × Nat)) (e : TocEntry) :
      (entryFindings t.kind index earlier e).filter Diagnostic.isSectionOverlap = [] := by
    simp only [entryFindings, List.filter_append, List.append_eq_nil_iff]
    refine ⟨⟨⟨?crc, ?repeated⟩, ?order⟩, ?device⟩
    case order => split <;> [split <;> rfl; rfl]
    all_goals split <;> rfl
  rw [List.filter_append, hend, List.append_nil, findings, List.filter_append, hheader, List.nil_append,
    List.filter_flatMap, List.flatMap_eq_nil_iff]
  rintro ⟨e, index⟩ -
  exact hentry index _ e

namespace Image

variable {i : Image}

/-- Every finding of the walk is about an overlap. -/
theorem filter_isSectionOverlap_overlapsFrom (furthest : Option Section) (sections : List Section) :
    (overlapsFrom furthest sections).filter Diagnostic.isSectionOverlap = overlapsFrom furthest sections := by
  induction sections generalizing furthest with
  | nil => rfl
  | cons s rest ih =>
    cases furthest with
    | none => exact ih _
    | some p =>
      rw [overlapsFrom, List.filter_append, ih]
      split <;> rfl

/-- **The overlaps among the findings** of an image are those of its sections. -/
theorem filter_isSectionOverlap [Algorithms] (i : Image) :
    i.diagnostics.filter Diagnostic.isSectionOverlap = overlaps i.sections := by
  have hpointers : i.pointerFindings.filter Diagnostic.isSectionOverlap = [] := by
    refine List.filter_eq_nil_iff.2 fun d hd => ?_
    obtain ⟨⟨index, status⟩, -, hd⟩ := List.mem_filterMap.1 hd
    split at hd <;> cases hd
    exact Bool.false_ne_true
  have hitoc : i.itocFindings.filter Diagnostic.isSectionOverlap = [] :=
    Toc.filter_isSectionOverlap_findings _ _ _
  have hdtoc : i.dtocFindings.filter Diagnostic.isSectionOverlap = [] := by
    rw [filter_dtocFindings (fun _ _ => rfl) (fun _ _ _ => rfl), List.flatMap_eq_nil_iff]
    exact fun t _ => Toc.filter_isSectionOverlap_findings _ _ _
  have hplacements :
      (i.placements.flatMap (·.findings i.data i.encrypted)).filter Diagnostic.isSectionOverlap = [] :=
    filter_placementFindings (fun _ _ => rfl) (fun _ _ _ => rfl) (fun _ _ _ _ => rfl) i
  have hsections : (i.sections.flatMap crcFindings).filter Diagnostic.isSectionOverlap = [] := by
    rw [List.filter_flatMap, List.flatMap_eq_nil_iff]
    intro s _
    rw [crcFindings]
    split
    · rfl
    · split <;> rfl
  have hoverlaps : (overlaps i.sections).filter Diagnostic.isSectionOverlap = overlaps i.sections :=
    filter_isSectionOverlap_overlapsFrom none i.sections
  simp only [diagnostics, List.filter_append, hpointers, hitoc, hdtoc, hplacements, hsections, hoverlaps,
    List.nil_append, List.append_nil]

/-! ### The result -/

/-- The sections of an image stand by their start, and none is empty. -/
theorem inPlace_sections (i : Image) : InPlace i.sections := by
  refine ⟨i.pairwise_offset, fun s hs => ?_⟩
  have hdata := List.length_pos_of_ne_nil (place_of_mem_sections hs).1
  rw [Section.last]
  omega

/-- No section overlaps an earlier one if each ends where any later one starts, or before. -/
theorem forall_not_overlapsEarlier_iff {sections : List Section} (hplace : InPlace sections) :
    (∀ n, ¬ OverlapsEarlier sections n) ↔ sections.Pairwise Section.EndsBefore := by
  constructor
  · intro hnone
    rw [List.pairwise_iff_getElem]
    intro k n hk hn hlt
    by_contra hlast
    -- The later section starts inside the earlier one, so they share the byte there.
    have hstart := List.pairwise_iff_getElem.1 hplace.sorted k n hk hn hlt
    have hbyte := hplace.nonempty _ (List.getElem_mem hn)
    have hmem : sections[k] ∈ sections.take n :=
      List.mem_iff_getElem?.2 ⟨k, by rw [List.getElem?_take_of_lt hlt, List.getElem?_eq_getElem hk]⟩
    exact hnone n ⟨sections[n], List.getElem?_eq_getElem hn, sections[k], hmem, sections[n].offset,
      ⟨hstart, Nat.lt_of_not_le hlast⟩, Nat.le_refl _, hbyte⟩
  · rintro hapart n ⟨t, ht, s, hs, q, hsq, htq⟩
    obtain ⟨k, hk⟩ := List.mem_iff_getElem?.1 hs
    rw [List.getElem?_take] at hk
    split at hk
    · next hlt =>
      obtain ⟨hn, rfl⟩ := List.getElem?_eq_some_iff.1 ht
      obtain ⟨hbound, rfl⟩ := List.getElem?_eq_some_iff.1 hk
      have hlast : sections[k].last ≤ sections[n].offset :=
        List.pairwise_iff_getElem.1 hapart k n hbound hn hlt
      have hend := hsq.2
      have hstart := htq.1
      omega
    · cases hk

/-- Each section ends before all later ones if it ends before the next one. -/
theorem pairwise_endsBefore_iff {sections : List Section} : sections.Pairwise Section.EndsBefore ↔
    ∀ n s t, sections[n]? = some s → sections[n + 1]? = some t → s.last ≤ t.offset := by
  rw [← List.isChain_iff_pairwise, List.isChain_iff_getElem]
  constructor
  · intro hnext n s t hs ht
    obtain ⟨hn, rfl⟩ := List.getElem?_eq_some_iff.1 hs
    obtain ⟨hn', rfl⟩ := List.getElem?_eq_some_iff.1 ht
    exact hnext n hn'
  · intro hnext n hn
    exact hnext n _ _ (List.getElem?_eq_getElem (by omega)) (List.getElem?_eq_getElem hn)

/-- **What an image reports about overlaps** is what its sections have. -/
structure OverlapsReported [Algorithms] (i : Image) : Prop where
  /-- There are as many findings as there are sections that share a byte with an earlier one. -/
  count_eq : i.diagnostics.countP Diagnostic.isSectionOverlap
    = (List.range i.sections.length).countP (OverlapsEarlier i.sections)
  /-- Each finding names one of those sections, in order, and an earlier one that it shares a byte
  with. -/
  named : List.Forall₂ (NamesOverlap i.sections)
    ((List.range i.sections.length).filter (OverlapsEarlier i.sections))
    (i.diagnostics.filter Diagnostic.isSectionOverlap)
  /-- Nothing is reported if each section ends where the next one starts, or before. -/
  none_iff : (∀ d ∈ i.diagnostics, d.isSectionOverlap = false) ↔
    ∀ n s t, i.sections[n]? = some s → i.sections[n + 1]? = some t → s.last ≤ t.offset

/-- **All overlaps of an image are reported, and no others.** -/
theorem overlapsReported [Algorithms] (i : Image) : i.OverlapsReported := by
  have hplace := i.inPlace_sections
  have hnamed := forall₂_overlaps hplace
  rw [← i.filter_isSectionOverlap] at hnamed
  refine ⟨?_, hnamed, ?_⟩
  · rw [List.countP_eq_length_filter, List.countP_eq_length_filter]
    exact hnamed.length_eq.symm
  · rw [← pairwise_endsBefore_iff, ← forall_not_overlapsEarlier_iff hplace]
    -- There are findings if there are positions to name.
    have hnone : i.diagnostics.filter Diagnostic.isSectionOverlap = [] ↔
        (List.range i.sections.length).filter (OverlapsEarlier i.sections) = [] := by
      rw [← List.length_eq_zero_iff, ← hnamed.length_eq, List.length_eq_zero_iff]
    rw [List.filter_eq_nil_iff, List.filter_eq_nil_iff] at hnone
    constructor
    · intro h n hoverlap
      have hn : n < i.sections.length := by
        obtain ⟨t, ht, -⟩ := hoverlap
        exact (List.getElem?_eq_some_iff.1 ht).1
      refine hnone.1 (fun d hd => by simp [h d hd]) n (List.mem_range.2 hn) ?_
      simpa using hoverlap
    · intro h d hd
      have hno := hnone.2 (fun n _ => by simpa using h n) d hd
      exact Bool.eq_false_iff.2 hno

end Image

end FlashImage
