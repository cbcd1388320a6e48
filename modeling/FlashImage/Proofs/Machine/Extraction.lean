import FlashImage.Algorithms.Standard
import FlashImage.Machine.Extraction
import FlashImage.Proofs.Machine.Image

/-!
# Taking an image apart without fault

Of an image that was read one can ask for its gaps, for the contents, the CRCs and the end of each
section, and for its files. None of this has a fault (`faultless`). The bounds of a gap are the ends of
sections, or of the image, and are in order where there is a gap. A section is numbered by how many of its
code came before, so taking one off what was just counted is safe. All counts are bounded by how many
sections there are, and these by the bytes of the tables that announce them.

The files are made section by section and gap by gap. What has been made after some rounds is the front
part of what `Image.extract` gives (`Progress.after`, `GapProgress.after`); one round leads from the front
part to the next (`takeSection_after`, `takeGap_after`).
-/

namespace FlashImage.Machine

variable {data : Bytes} {i : Image} {s : Section}

/-! ### Gaps -/

theorem gapUpTo_eq {first last : Nat} (h : last ≤ data.length) :
    gapUpTo data first last = .ok (if first < last then [.between data first last] else []) := by
  rw [gapUpTo]
  split
  · next hlt =>
    rw [sliceBetween_eq (Nat.le_of_lt hlt) h]
    rfl
  · rfl

theorem gapsFrom_eq (hd : data.length < 2 ^ 63) {sections : List Section}
    (h : ∀ s ∈ sections, s.last ≤ data.length) (pos : Nat) :
    gapsFrom data pos sections = .ok (Image.gapsFrom data pos sections) := by
  induction sections generalizing pos with
  | nil => exact gapUpTo_eq (Nat.le_refl _)
  | cons s rest ih =>
    obtain ⟨hs, hrest⟩ := List.forall_mem_cons.1 h
    have hoffset : s.offset ≤ data.length := Nat.le_trans (Nat.le_add_right _ _) hs
    rw [gapsFrom, gapUpTo_eq hoffset, ok_bind, last_eq (by omega), ok_bind, ih hrest]
    rfl

theorem gaps_eq [Algorithms] (hd : i.data.length < 2 ^ 63) : gaps (.of i) = .ok i.gaps := by
  show gapsFrom i.data 0 ((i.sections.map Loaded.of).map (·.subject)) = _
  rw [map_subject_of, gapsFrom_eq hd fun s hs => (Image.place_of_mem_sections hs).2.1]
  rfl

theorem gapSize_eq {g : Gap} (hg : g ∈ i.gaps) : gapSize g = .ok g.size :=
  sub_eq (Nat.le_of_lt (i.tiling.gap_inside g hg).1)

/-! ### JSON -/

@[simp] theorem entryJson?_eq (e : Option TocEntry) : entryJson? e = .ok (.option TocEntry.toJson e) := by
  cases e with
  | none => rfl
  | some e => exact entryJson_eq e

@[simp] theorem projectionJson_eq (p : Projection) : projectionJson p = .ok p.toJson := by
  cases p with
  | toc t =>
    simp only [projectionJson, tocJson, headerJson_eq, mapM_eq fun e _ => entryJson_eq e, entryJson?_eq, ok_bind]
    rfl
  | _ => rfl

@[simp] theorem indexJson_eq (m : Metadata) : indexJson m = .ok m.toJson := by
  rw [indexJson, mapM_eq fun r _ => entryJson?_eq _]
  rfl

/-! ### Files of sections -/

/-- The progress after the first `k` sections. -/
def Progress.after [Algorithms] (sections : List Section) (keepBinary : Bool) (k : Nat) : Progress :=
  let pieces := (Extraction.sectionPieces keepBinary sections).take k
  { seen := fun code =>
      if 1 < sections.countP (·.code = code) then (sections.take k).countP (·.code = code) else 0
    pieces := pieces
    records := pieces.map SectionPiece.toRecord
    layout := pieces.zipIdx.map fun x => x.1.layoutEntry x.2
    files := filesOf pieces }

theorem sectionPiece_eq [Algorithms] (keepBinary : Bool) (base : String) (s : Section) :
    sectionPiece keepBinary base (.of s) = .ok (.ofSection keepBinary base s) := by
  have hjson : jsonContents (Loaded.of s).projection
      = .ok (if s.projection.isDecoded then some s.projection.toJson.pretty else none) := by
    rw [jsonContents, projectionJson_eq]
    show (if s.projection.isDecoded = true then _ else _) = _
    split <;> rfl
  have hbinary : binaryContents keepBinary (.of s)
      = .ok (if s.projection.isDecoded && !s.projection.keepsBytes && !keepBinary then none
        else some s.payload) := by
    rw [binaryContents, show payload (Loaded.of s).subject = .ok s.payload from payload_eq]
    show (if (s.projection.isDecoded && !s.projection.keepsBytes && !keepBinary) = true then _ else _) = _
    split <;> rfl
  rw [sectionPiece, hjson, ok_bind, hbinary]
  rfl

theorem sectionRecord_eq [Algorithms] {piece : SectionPiece} (hd : piece.subject.data.length < 2 ^ 63) :
    sectionRecord piece (.of piece.subject) = .ok piece.toRecord := by
  simp only [sectionRecord, Loaded.of, payload_eq, storedCrc_eq hd, trailer_eq hd, computedCrc_eq,
    anyHas_eq, ok_bind]
  rfl

/-- What comes up to an element, and the element. -/
theorem take_succ_of_getElem? {α : Type} {xs : List α} {k : Nat} {x : α} (h : xs[k]? = some x) :
    xs.take (k + 1) = xs.take k ++ [x] ∧ (xs.take k).length = k := by
  have hk := (List.getElem?_eq_some_iff.1 h).1
  rw [List.take_add_one, h, Option.toList_some]
  exact ⟨rfl, List.length_take_of_le (Nat.le_of_lt hk)⟩

theorem count_eq {one : Bool} {n : Nat} (h : n + 1 < 2 ^ 64) :
    count one n = .ok (if one then n + 1 else n) := by
  rw [count, add_eq h]
  split <;> rfl

/-- Counting among some elements and one more. -/
theorem count_countP {α : Type} {p : α → Bool} {xs : List α} (h : xs.length + 1 < 2 ^ 64) (x : α) :
    count (p x) (xs.countP p) = .ok ((xs ++ [x]).countP p) := by
  have hle := List.countP_le_length (p := p) (l := xs)
  rw [count_eq (by omega), List.countP_append, List.countP_singleton]
  split <;> rfl

theorem countFiles_eq {pieces : List SectionPiece} (h : pieces.length + 1 < 2 ^ 64)
    (piece : SectionPiece) : countFiles piece (filesOf pieces) = .ok (filesOf (pieces ++ [piece])) := by
  simp only [countFiles, filesOf, add_eq h, ok_bind,
    count_countP (p := fun p : SectionPiece => p.binary.isSome) h piece,
    count_countP (p := fun p : SectionPiece => p.json.isSome) h piece,
    count_countP (p := fun p : SectionPiece => p.settings.isSome) h piece, List.length_append]
  rfl

/-- **One more section is numbered** by how many with its code came before it. -/
theorem number_eq {sections : List Section} {k : Nat} (hk : sections[k]? = some s)
    (hlength : sections.length < 2 ^ 63) :
    number sections (fun code =>
        if 1 < sections.countP (·.code = code) then (sections.take k).countP (·.code = code) else 0) s.code
      = .ok (SectionPiece.numberAmong sections (sections.take k) s, fun code =>
        if 1 < sections.countP (·.code = code) then (sections.take (k + 1)).countP (·.code = code) else 0) := by
  have hle := List.countP_le_length (p := fun t : Section => t.code = s.code) (l := sections.take k)
  rw [List.length_take] at hle
  have hnext (code : SectionCode) : (sections.take (k + 1)).countP (·.code = code)
      = (sections.take k).countP (·.code = code) + if s.code = code then 1 else 0 := by
    rw [(take_succ_of_getElem? hk).1, List.countP_append, List.countP_singleton]
    simp
  rw [number, SectionPiece.numberAmong]
  -- Sections are numbered if there are several of their type; only the count of this type goes up.
  by_cases hseveral : 1 < sections.countP (·.code = s.code)
  · simp only [if_pos hseveral]
    rw [add_eq (by omega), ok_bind, sub_eq (by omega), ok_bind, Nat.add_sub_cancel]
    refine congrArg (fun f => Except.ok (some _, f)) (funext fun code => ?_)
    by_cases hcode : code = s.code
    · rw [if_pos hcode, hcode, if_pos hseveral, hnext, if_pos rfl]
    · rw [if_neg hcode, hnext, if_neg (Ne.symm hcode), Nat.add_zero]
  · simp only [if_neg hseveral]
    refine congrArg (fun f => Except.ok (none, f)) (funext fun code => ?_)
    by_cases hcode : code = s.code
    · rw [hcode, if_neg hseveral, if_neg hseveral]
    · rw [hnext, if_neg (Ne.symm hcode), Nat.add_zero]

/-- **One more section is taken out.** -/
theorem takeSection_after [Algorithms] {sections : List Section} {keepBinary : Bool} {k : Nat}
    (hk : sections[k]? = some s) (hlength : sections.length < 2 ^ 63) (hd : s.data.length < 2 ^ 63)
    (hlast : s.last < 2 ^ 64) :
    takeSection sections keepBinary (.after sections keepBinary k) (.of s) k
      = .ok (.after sections keepBinary (k + 1)) := by
  let number := SectionPiece.numberAmong sections (sections.take k) s
  let piece := SectionPiece.ofSection keepBinary (SectionPiece.baseName s number) s
  let front := (Extraction.sectionPieces keepBinary sections).take k
  have hpiece : (Extraction.sectionPieces keepBinary sections)[k]? = some piece := by
    rw [Extraction.sectionPieces, List.getElem?_map, List.getElem?_zipIdx, hk]
    simp [piece, number]
  obtain ⟨hnext, hfront⟩ := take_succ_of_getElem? hpiece
  have hroom : front.length + 1 < 2 ^ 64 := by
    have hcount := (List.getElem?_eq_some_iff.1 hk).1
    rw [hfront]
    omega
  have hnumber : Machine.number sections (Progress.after sections keepBinary k).seen (Loaded.of s).subject.code
      = .ok (number, (Progress.after sections keepBinary (k + 1)).seen) := number_eq hk hlength
  have hrecord : sectionRecord piece (.of s) = .ok piece.toRecord := @sectionRecord_eq _ piece hd
  have hend : last (Loaded.of s).subject = .ok s.last := last_eq hlast
  have hfiles : countFiles piece (Progress.after sections keepBinary k).files
      = .ok (filesOf (front ++ [piece])) := countFiles_eq hroom piece
  rw [takeSection, hnumber, ok_bind]
  dsimp only
  rw [show SectionPiece.baseName (Loaded.of s).subject number = SectionPiece.baseName s number from rfl,
    sectionPiece_eq, ok_bind, hrecord, ok_bind, hend, ok_bind, hfiles, ok_bind]
  simp only [Progress.after, hnext, List.map_append, List.zipIdx_append, hfront, Nat.zero_add]
  rfl

/-! ### Files of gaps -/

/-- The progress after the first `k` gaps. -/
def GapProgress.after (data : Bytes) (gaps : List Gap) (k : Nat) : GapProgress :=
  let pieces := (Extraction.gapPieces data gaps).take k
  ⟨pieces, pieces.map GapPiece.layoutEntry, pieces.length⟩

theorem gapContents_eq {g : Gap} (hg : g ∈ i.gaps) (index : Nat) :
    gapContents i.data g = .ok (GapPiece.ofGap i.data index g).contents := by
  obtain ⟨horder, hlast⟩ := i.tiling.gap_inside g hg
  rw [gapContents, gapSize_eq hg, GapPiece.ofGap]
  cases g.fill with
  | some b => rfl
  | none =>
    simp only [sliceBetween_eq (Nat.le_of_lt horder) hlast]
    rfl

/-- **One more gap is taken out.** -/
theorem takeGap_after {g : Gap} {k : Nat} (hk : i.gaps[k]? = some g)
    (hlength : i.gaps.length < 2 ^ 64) :
    takeGap i.data (.after i.data i.gaps k) g k = .ok (.after i.data i.gaps (k + 1)) := by
  let piece := GapPiece.ofGap i.data k g
  let front := (Extraction.gapPieces i.data i.gaps).take k
  have hpiece : (Extraction.gapPieces i.data i.gaps)[k]? = some piece := by
    rw [Extraction.gapPieces, List.getElem?_map, List.getElem?_zipIdx, hk]
    simp [piece]
  obtain ⟨hnext, hfront⟩ := take_succ_of_getElem? hpiece
  have hroom : front.length + 1 < 2 ^ 64 := by
    have hcount := (List.getElem?_eq_some_iff.1 hk).1
    rw [hfront]
    omega
  have hg := List.mem_of_getElem? hk
  have hcount : add (GapProgress.after i.data i.gaps k).count 1 = .ok (front.length + 1) := add_eq hroom
  rw [takeGap, gapContents_eq hg k, ok_bind, gapSize_eq hg, ok_bind, hcount, ok_bind]
  simp only [GapProgress.after, hnext, List.map_append, List.length_append]
  rfl

/-! ### The whole image -/

@[simp] theorem tocSummary_eq (t : PlacedToc) : tocSummary t = .ok (.ofToc t) := by
  rw [tocSummary, headerStatus_eq]
  rfl

@[simp] theorem rows_eq (format : Format) (ps : Pointers) : rows format ps = .ok (ps.rows format) := by
  have hrow (x : Pointer × Nat) :
      (do return ⟨x.2, format.role? x.2, x.1.value, x.1.crc, !(← pointerStatus x.1).isInvalid⟩)
        = (.ok ⟨x.2, format.role? x.2, x.1.value, x.1.crc, !x.1.status.isInvalid⟩ : Run PointerRow) := by
    rw [pointerStatus_eq]
    rfl
  exact mapM_eq fun x _ => hrow x

/-- There is at most one more gap than there are sections. -/
theorem length_gapsFrom_le (data : Bytes) (pos : Nat) (sections : List Section) :
    (Image.gapsFrom data pos sections).length ≤ sections.length + 1 := by
  induction sections generalizing pos with
  | nil =>
    rw [Image.gapsFrom]
    split <;> simp
  | cons s rest ih =>
    have hrest := ih (max pos s.last)
    rw [Image.gapsFrom, List.length_append, List.length_cons]
    split <;> simp only [List.length_cons, List.length_nil] <;> omega

/-- All sections are taken out. -/
theorem takeSections_eq [Algorithms] (hi : i.Anchored) (hd : i.data.length < 2 ^ 63) (keepBinary : Bool) :
    (i.sections.map Loaded.of).zipIdx.foldlM (fun st x => takeSection i.sections keepBinary st x.1 x.2)
      (.after i.sections keepBinary 0) = .ok (.after i.sections keepBinary i.sections.length) := by
  have hround : ∀ k x, (i.sections.map Loaded.of)[k]? = some x →
      takeSection i.sections keepBinary (.after i.sections keepBinary k) x k
        = .ok (.after i.sections keepBinary (k + 1)) := by
    intro k x hx
    rw [List.getElem?_map] at hx
    obtain ⟨s, hk, rfl⟩ := Option.map_eq_some_iff.1 hx
    have hs := List.mem_of_getElem? hk
    obtain ⟨-, hsize, hlast⟩ := Image.last_lt_of_mem_sections hd hs
    have hinside := (Image.place_of_mem_sections hs).2.1
    rw [Section.last] at hinside
    exact takeSection_after hk (Image.length_sections_lt hi hd) (by omega) hlast
  have hrun := foldlM_zipIdx hround
  rwa [List.length_map] at hrun

/-- All gaps are taken out. -/
theorem takeGaps_eq (hi : i.Anchored) (hd : i.data.length < 2 ^ 63) :
    i.gaps.zipIdx.foldlM (fun st x => takeGap i.data st x.1 x.2) (.after i.data i.gaps 0)
      = .ok (.after i.data i.gaps i.gaps.length) := by
  have hlength : i.gaps.length < 2 ^ 64 := by
    have hsections := Image.length_sections_lt hi hd
    have hgaps := length_gapsFrom_le i.data 0 i.sections
    rw [Image.gaps]
    omega
  exact foldlM_zipIdx fun k g hk => takeGap_after hk hlength

theorem Progress.after_zero [Algorithms] (sections : List Section) (keepBinary : Bool) :
    after sections keepBinary 0 = ⟨fun _ => 0, [], [], [], filesOf []⟩ := by
  simp [after]

/-- **Taking an image apart has no fault**, and gives the files, the index and the numbers of files that
`Image.extract` gives. -/
theorem extract_eq [Algorithms] (hi : i.Anchored) (hd : i.data.length < 2 ^ 63) (keepBinary : Bool) :
    extract (.of i) keepBinary = .ok ⟨i.extract keepBinary, (i.extract keepBinary).metadata.toJson.pretty,
      (i.extract keepBinary).summary⟩ := by
  have hoffset : add i.base Pointers.offset = .ok i.pointersOffset := by
    have hbase := hi.base_lt
    refine add_eq ?_
    unfold Pointers.offset
    omega
  have hdtoc : i.dtoc.mapM tocSummary = .ok (i.dtoc.map .ofToc) := by
    cases i.dtoc with
    | none => rfl
    | some t => exact congrArg (Except.map some) (tocSummary_eq t)
  have hgaps : gaps ⟨i, i.dtoc, i.encrypted, i.sections.map .of, i.diagnostics⟩ = .ok i.gaps := gaps_eq hd
  have hpieces : (Extraction.sectionPieces (keepBinary || i.encrypted) i.sections).take i.sections.length
      = Extraction.sectionPieces (keepBinary || i.encrypted) i.sections :=
    List.take_of_length_le (by simp [Extraction.sectionPieces])
  have hgapPieces : (Extraction.gapPieces i.data i.gaps).take i.gaps.length
      = Extraction.gapPieces i.data i.gaps :=
    List.take_of_length_le (by simp [Extraction.gapPieces])
  -- Both loops start from nothing and end with all pieces.
  have hsectionsOut := takeSections_eq hi hd (keepBinary || i.encrypted)
  have hgapsOut := takeGaps_eq hi hd
  rw [Progress.after_zero, Progress.after, hpieces] at hsectionsOut
  rw [show GapProgress.after i.data i.gaps 0 = ⟨[], [], 0⟩ from rfl, GapProgress.after, hgapPieces] at hgapsOut
  simp only [extract, Parsed.of, map_subject_of, hoffset, rows_eq, tocSummary_eq, hdtoc, hgaps, ok_bind,
    hsectionsOut, hgapsOut, indexJson_eq]
  rfl

/-! ### No fault -/

/-- **What can be asked of an image that was read**, and the answers, which are those of the definitions. -/
structure Answers [Algorithms] (i : Image) : Prop where
  gaps : Machine.gaps (.of i) = .ok i.gaps
  gapSize : ∀ g ∈ i.gaps, Machine.gapSize g = .ok g.size
  payload : ∀ s ∈ i.sections, Machine.payload s = .ok s.payload
  trailer : ∀ s ∈ i.sections, Machine.trailer s = .ok s.trailer
  storedCrc : ∀ s ∈ i.sections, Machine.storedCrc s = .ok s.storedCrc
  computedCrc : ∀ s ∈ i.sections, Machine.computedCrc s = .ok s.computedCrc
  last : ∀ s ∈ i.sections, Machine.last s = .ok s.last
  extract : ∀ keepBinary, Machine.extract (.of i) keepBinary = .ok
    ⟨i.extract keepBinary, (i.extract keepBinary).metadata.toJson.pretty, (i.extract keepBinary).summary⟩

/-- **Nothing ends in a fault.** Reading any byte string of less than `2 ^ 63` bytes gives what the
definitions give, an image or the reason why there is none, and whatever is asked of an image that was
read has an answer. -/
theorem faultless [Algorithms] (h : data.length < 2 ^ 63) :
    parse data = settled ((Image.parse data).map .of) ∧ ∀ i, Image.parse data = .ok i → Answers i := by
  refine ⟨parse_eq h, fun i hparse => ?_⟩
  obtain ⟨rfl, hi⟩ := Image.anchored_of_parse hparse
  have hsize : ∀ s ∈ i.sections, s.data.length < 2 ^ 63 := by
    intro s hs
    have hinside := (Image.place_of_mem_sections hs).2.1
    rw [Section.last] at hinside
    omega
  exact {
    gaps := gaps_eq h
    gapSize := fun g hg => gapSize_eq hg
    payload := fun s _ => payload_eq
    trailer := fun s hs => trailer_eq (hsize s hs)
    storedCrc := fun s hs => storedCrc_eq (hsize s hs)
    computedCrc := fun s _ => computedCrc_eq
    last := fun s hs => last_eq (Image.last_lt_of_mem_sections h hs).2.2
    extract := extract_eq hi h }

/-- The small image is read and taken apart without fault. -/
theorem faultless_smallImage : ∃ i, smallImage.length < 2 ^ 63 ∧ Image.parse smallImage = .ok i ∧
    @parse .standard smallImage = settled (.ok (@Parsed.of .standard i)) ∧ @Answers .standard i := by
  obtain ⟨i, hi⟩ := exists_parse_smallImage
  have hlen : smallImage.length < 2 ^ 63 := by decide +kernel
  obtain ⟨hparse, hanswers⟩ := @faultless smallImage .standard hlen
  rw [hi] at hparse
  exact ⟨i, hlen, hi, hparse, hanswers i hi⟩

end FlashImage.Machine
