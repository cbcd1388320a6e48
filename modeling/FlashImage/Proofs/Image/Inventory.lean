import FlashImage.Proofs.Image.Checks
import Mathlib.Data.List.Perm.Basic
import Mathlib.Data.List.ReduceOption

/-!
# What comes of everything that is announced

Entries of tables and pointers announce sections. Of each announcement comes a section, or the finding
that the image ends before it does, or nothing at all if there is nothing announced: an entry of size
zero, an absent pointer. The outcomes are listed once (`Image.outcomes`), straight from the records and
without the walk that finds them. Beside the pointer array and the tables themselves, the sections of an
image are those outcomes that are sections, and what is reported as cut off are those that are not
(`Image.inventory_of_parse`).

What the records of a table say about themselves is reported apart from that, whether they announce
anything or not.

## Parts

* findings that the image ends too early;
* the outcome of one announcement, and what it gives and reports;
* the outcomes in an image;
* sections and findings as outcomes.
-/

namespace FlashImage

/-! ### Ends of the image -/

/-- Whether the image ends too early. -/
def Diagnostic.isTruncated : Diagnostic → Bool
  | truncated .. => true
  | _ => false

/-- Of what is wrong with a table, a missing end marker is that the image ends too early. -/
theorem Toc.filter_isTruncated_findings (t : Toc) (address imageSize : Nat) :
    (t.findings address ++ t.endFindings address imageSize).filter Diagnostic.isTruncated
      = t.endFindings address imageSize := by
  have hentry (kind : TocKind) (index : Nat) (earlier : List (UInt8 × Nat)) (e : TocEntry) :
      (entryFindings kind index earlier e).filter Diagnostic.isTruncated = [] := by
    simp only [entryFindings, List.filter_append, List.append_eq_nil_iff]
    refine ⟨⟨⟨?_, ?_⟩, ?_⟩, ?_⟩
    · split <;> rfl
    · split <;> rfl
    · split
      · split <;> rfl
      · rfl
    · split <;> rfl
  have hfindings : (t.findings address).filter Diagnostic.isTruncated = [] := by
    rw [findings, List.filter_append, List.filter_flatMap, List.append_eq_nil_iff,
      List.flatMap_eq_nil_iff]
    refine ⟨?_, fun _ _ => hentry _ _ _ _⟩
    rw [headerFindings]
    split <;> rfl
  rw [List.filter_append, hfindings, List.nil_append, endFindings]
  split <;> rfl

/-! ### One announcement -/

/-- **What comes of an announcement.** -/
inductive Located where
  /-- A section is there. -/
  | found (s : Section)
  /-- The image ends before the `length` bytes at the offset do. -/
  | cutOff (code : SectionCode) (offset length imageSize : Nat)
  deriving DecidableEq

namespace Located

/-- The type that was announced. -/
def code : Located → SectionCode
  | found s => s.code
  | cutOff code .. => code

def section? : Located → Option Section
  | found s => some s
  | cutOff .. => none

def finding? : Located → Option Diagnostic
  | found _ => none
  | cutOff code offset length imageSize => some (.truncated code.name offset length imageSize)

/-- What is reported: that it is cut off, or what the contents of the section say. -/
def findings [Algorithms] : Located → List Diagnostic
  | found s => s.findings
  | o => o.finding?.toList

/-- Sections that are found are the sections of their outcomes. -/
theorem filterMap_section?_found (ss : List Section) : (ss.map found).filterMap section? = ss := by
  rw [List.filterMap_map]
  exact List.filterMap_some

/-- Sections that are found are not cut off. -/
theorem filterMap_finding?_found (ss : List Section) : (ss.map found).filterMap finding? = [] := by
  rw [List.filterMap_map]
  exact List.filterMap_none ..

/-- What a list of outcomes reports comes from its sections and from what is cut off. -/
theorem flatMap_findings_perm [Algorithms] (os : List Located) : (os.flatMap findings).Perm
    ((os.filterMap section?).flatMap Section.findings ++ os.filterMap finding?) := by
  have hsplit (o : Located) :
      o.findings = o.section?.toList.flatMap Section.findings ++ o.finding?.toList := by
    cases o <;> simp [findings, section?, finding?]
  rw [List.filterMap_eq_flatMap_toList, List.filterMap_eq_flatMap_toList, List.flatMap_assoc,
    funext hsplit]
  exact (List.flatMap_append_perm os _ _).symm

end Located

namespace Placement

/-- **What comes of an announcement**, unless it is one of no bytes. -/
def outcome? (p : Placement) (data : Bytes) (encryptedImage : Bool) : Option Located :=
  match p.length with
  | none => some (.cutOff p.code p.offset minLength data.length)
  | some length =>
    if length = 0 then none
    else if p.offset + length ≤ data.length then some (.found (p.sectionOf data encryptedImage length))
    else some (.cutOff p.code p.offset length data.length)

variable (p : Placement) (data : Bytes) (encryptedImage : Bool)

theorem section?_eq_bind :
    p.section? data encryptedImage = (p.outcome? data encryptedImage).bind Located.section? := by
  rw [section?, outcome?]
  cases p.length with
  | none => rfl
  | some length =>
    simp only [ne_eq]
    split
    · next h =>
      rw [if_neg h.1, if_pos h.2]
      rfl
    · next h =>
      by_cases hzero : length = 0
      · rw [if_pos hzero]
        rfl
      · rw [if_neg hzero, if_neg fun hfit => h ⟨hzero, hfit⟩]
        rfl

theorem findings_eq_flatMap [Algorithms] : p.findings data encryptedImage
    = (p.outcome? data encryptedImage).toList.flatMap Located.findings := by
  rw [findings, outcome?]
  cases p.length with
  | none => rfl
  | some length =>
    simp only
    split
    · rfl
    · split
      · exact (List.flatMap_singleton ..).symm
      · rfl

end Placement

namespace Image

/-! ### The outcomes in an image -/

/-- What comes of `length` bytes at an offset: the section, if the image holds all of them. -/
def outcomeAt (i : Image) (code : SectionCode) (offset length : Nat) (origin : Origin)
    (entry : Option TocEntry) : Located :=
  if offset + length ≤ i.data.length then
    .found ⟨code, offset, i.data.slice offset length, origin, entry, i.encrypted⟩
  else .cutOff code offset length i.data.length

/-- **What comes of an entry** of a table, unless it is one of no bytes. -/
def entryOutcome? (i : Image) (kind : TocKind) (index : Nat) (e : TocEntry) : Option Located :=
  if e.size = 0 then none
  else some (i.outcomeAt e.code (i.base + e.address) e.size (.toc kind index) (some e))

/-- **What comes of a pointer** to a structure of a type, unless it is absent. The structure tells its
length; if it cannot, it is cut off all the same. -/
def pointerOutcome? (i : Image) (index : Nat) (code : SectionCode) (length? : Bytes → Option Nat) :
    Option Located :=
  i.pointers.records[index]?.bind fun p =>
    if p.value = Pointer.absentValue then none
    else
      let offset := i.base + p.value.toNat
      match length? (i.data.drop offset) with
      | some length => some (i.outcomeAt code offset length (.pointer index) none)
      | none => some (.cutOff code offset Placement.minLength i.data.length)

/-- **What comes of the pointers and of the entries of the tables.** -/
def outcomes (i : Image) : List Located :=
  [i.pointerOutcome? 1 SectionCode.boot2 Boot2.sectionLength?,
    i.pointerOutcome? 3 SectionCode.toolsArea fun _ => some ToolsArea.size,
    i.pointerOutcome? 15 SectionCode.hashesTable HashesTable.sectionLength?].reduceOption
  ++ i.tables.flatMap fun t =>
    t.toc.entries.zipIdx.filterMap fun (e, index) => i.entryOutcome? t.toc.kind index e

variable {i : Image}

/-- An announcement of bytes comes out as those bytes do. -/
theorem outcome?_of_length (code : SectionCode) (offset : Nat) {length : Nat} (hlength : length ≠ 0)
    (origin : Origin) (entry : Option TocEntry) :
    (Placement.mk code offset (some length) origin entry).outcome? i.data i.encrypted
      = some (i.outcomeAt code offset length origin entry) := by
  simp only [Placement.outcome?, if_neg hlength, outcomeAt, Placement.sectionOf]
  split <;> rfl

theorem filterMap_entriesOf (t : PlacedToc) :
    (entriesOf i.base t).filterMap (·.outcome? i.data i.encrypted)
      = t.toc.entries.zipIdx.filterMap fun (e, index) => i.entryOutcome? t.toc.kind index e := by
  rw [entriesOf, List.filterMap_map]
  refine List.filterMap_congr ?_
  rintro ⟨e, index⟩ -
  simp only [Function.comp_apply]
  by_cases hzero : e.size = 0
  · simp only [Placement.outcome?, entryOutcome?, if_pos hzero]
  · rw [entryOutcome?, if_neg hzero]
    exact outcome?_of_length _ _ hzero _ _

/-- A pointer with a role that is at one place comes out as the pointer at that place. -/
theorem pointerOutcome?_eq {role : Role} {index : Nat} (hindex : i.format.indexOf? role = some index)
    (code : SectionCode) {length? : Bytes → Option Nat} (hlength : ∀ bs, length? bs ≠ some 0) :
    ((do
      let index ← i.format.indexOf? role
      let address ← i.pointers.address? i.format role
      let offset := i.base + address
      return Placement.mk code offset (length? (i.data.drop offset)) (.pointer index) none).bind
        (·.outcome? i.data i.encrypted))
      = i.pointerOutcome? index code length? := by
  simp only [Pointers.address?, hindex, pointerOutcome?, Option.bind_some, bind, pure]
  cases i.pointers.records[index]? with
  | none => rfl
  | some p =>
    by_cases habsent : p.value = Pointer.absentValue
    · simp [Pointer.isAbsent, habsent]
    · simp only [Pointer.isAbsent, habsent, decide_false, Bool.false_eq_true, if_false, Option.bind_some]
      cases h : length? (i.data.drop (i.base + p.value.toNat)) with
      | none => rfl
      | some length =>
        -- A length is not zero, so that what is announced is not passed over.
        have hpos : length ≠ 0 := by
          rintro rfl
          exact hlength _ h
        exact outcome?_of_length _ _ hpos _ _

/-- A boot loader has a header at least. -/
theorem length_ne_zero_boot2 (bs : Bytes) : Boot2.sectionLength? bs ≠ some 0 := by
  intro h
  obtain ⟨dwords, -, hlength⟩ := Option.map_eq_some_iff.1 h
  omega

/-- A table of hashes has a CRC dword at least. -/
theorem length_ne_zero_hashesTable (bs : Bytes) : HashesTable.sectionLength? bs ≠ some 0 := by
  intro h
  obtain ⟨dwords, -, hlength⟩ := Option.map_eq_some_iff.1 h
  omega

/-- **Every announcement comes out as it should**: the pointer array and the tables are there, and the
rest is what comes of the pointers and of the entries. -/
theorem filterMap_placements (hi : i.Anchored) :
    i.placements.filterMap (·.outcome? i.data i.encrypted)
      = (i.pointerArraySection :: i.tables.map i.tableSection).map .found ++ i.outcomes := by
  -- What gives a section comes out as that section.
  have hfound {p : Placement} {s : Section} (h : p.section? i.data i.encrypted = some s) :
      p.outcome? i.data i.encrypted = some (.found s) := by
    rw [Placement.section?_eq_bind] at h
    obtain ⟨o, ho, hs⟩ := Option.bind_eq_some_iff.1 h
    cases o <;> cases hs
    exact ho
  have htables : (i.tables.map tableOf).filterMap (·.outcome? i.data i.encrypted)
      = (i.tables.map i.tableSection).map .found := by
    rw [List.filterMap_map, List.map_map, ← List.filterMap_eq_map]
    exact List.filterMap_congr fun t ht => hfound (section?_tableOf hi ht)
  have hpointers : i.pointerPlacements.filterMap (·.outcome? i.data i.encrypted)
      = [i.pointerOutcome? 1 SectionCode.boot2 Boot2.sectionLength?,
          i.pointerOutcome? 3 SectionCode.toolsArea fun _ => some ToolsArea.size,
          i.pointerOutcome? 15 SectionCode.hashesTable HashesTable.sectionLength?].reduceOption := by
    have hboot2 : i.format.indexOf? .boot2 = some 1 := by cases i.format <;> rfl
    have htoolsArea : i.format.indexOf? .toolsArea = some 3 := by cases i.format <;> rfl
    have hhashesTable : i.format.indexOf? .hashesTable = some 15 := by cases i.format <;> rfl
    rw [← pointerOutcome?_eq hboot2 SectionCode.boot2 length_ne_zero_boot2,
      ← pointerOutcome?_eq htoolsArea SectionCode.toolsArea fun _ => by decide,
      ← pointerOutcome?_eq hhashesTable SectionCode.hashesTable length_ne_zero_hashesTable,
      pointerPlacements, List.filterMap_filterMap, List.reduceOption, pointedTo]
    simp only [List.filterMap_cons, List.filterMap_nil, id]
  have hentries : (i.tables.flatMap (entriesOf i.base)).filterMap (·.outcome? i.data i.encrypted)
      = i.tables.flatMap fun t =>
        t.toc.entries.zipIdx.filterMap fun (e, index) => i.entryOutcome? t.toc.kind index e := by
    rw [List.filterMap_flatMap]
    exact List.flatMap_congr fun t _ => filterMap_entriesOf t
  have hplacements : i.placements
      = ⟨SectionCode.pointers, i.pointersOffset, some Pointers.size, .pointerArray, none⟩
        :: (i.tables.map tableOf ++ i.pointerPlacements ++ i.tables.flatMap (entriesOf i.base)) := by
    simp [placements, tables]
  rw [hplacements, List.filterMap_cons, hfound (section?_pointerArray hi), List.filterMap_append,
    List.filterMap_append, htables, hpointers, hentries, List.map_cons, List.cons_append,
    List.append_assoc]
  rfl

/-- **The sections of an image**, up to their order. -/
theorem sections_perm (hi : i.Anchored) : i.sections.Perm
    (i.pointerArraySection :: i.tables.map i.tableSection ++ i.outcomes.filterMap Located.section?) := by
  have hsections : i.placements.filterMap (·.section? i.data i.encrypted)
      = (i.placements.filterMap (·.outcome? i.data i.encrypted)).filterMap Located.section? := by
    rw [List.filterMap_filterMap]
    exact List.filterMap_congr fun p _ => p.section?_eq_bind _ _
  rw [filterMap_placements hi, List.filterMap_append, Located.filterMap_section?_found] at hsections
  rw [sections, hsections]
  exact List.mergeSort_perm _ _

/-- What the announcements of an image report, up to the order: what its sections say, and what is cut
off. -/
theorem placementFindings_perm [Algorithms] (hi : i.Anchored) :
    (i.placements.flatMap (·.findings i.data i.encrypted)).Perm
      (i.sections.flatMap Section.findings ++ i.outcomes.filterMap Located.finding?) := by
  have houtcomes : i.placements.flatMap (·.findings i.data i.encrypted)
      = (i.placements.filterMap (·.outcome? i.data i.encrypted)).flatMap Located.findings := by
    rw [List.filterMap_eq_flatMap_toList, List.flatMap_assoc]
    exact List.flatMap_congr fun p _ => p.findings_eq_flatMap _ _
  rw [houtcomes, filterMap_placements hi]
  refine (Located.flatMap_findings_perm _).trans ?_
  rw [List.filterMap_append, List.filterMap_append, Located.filterMap_section?_found,
    Located.filterMap_finding?_found, List.nil_append]
  exact ((sections_perm hi).symm.flatMap_right _).append_right _

/-! ### Sections by type -/

/-- What comes of bytes at an offset is of the type that was announced. -/
theorem code_outcomeAt (i : Image) (code : SectionCode) (offset length : Nat) (origin : Origin)
    (entry : Option TocEntry) : (i.outcomeAt code offset length origin entry).code = code := by
  unfold outcomeAt
  split <;> rfl

/-- What comes of a pointer or of an entry is neither the pointer array nor a table, be it there or cut
off. -/
theorem code_of_mem_outcomes {o : Located} (ho : o ∈ i.outcomes) :
    o.code ≠ SectionCode.pointers ∧ o.code ≠ SectionCode.itoc ∧ o.code ≠ SectionCode.dtoc := by
  rcases List.mem_append.1 ho with ho | ho
  · have hpointer {index : Nat} {code : SectionCode} {length? : Bytes → Option Nat}
        (h : i.pointerOutcome? index code length? = some o) : o.code = code := by
      obtain ⟨p, -, h⟩ := Option.bind_eq_some_iff.1 h
      split at h
      · cases h
      · simp only at h
        split at h <;> cases h
        · exact i.code_outcomeAt ..
        · rfl
    rw [List.reduceOption_mem_iff] at ho
    simp only [List.mem_cons, List.not_mem_nil, or_false] at ho
    rcases ho with h | h | h <;> rw [hpointer h.symm] <;> decide
  · obtain ⟨t, -, ho⟩ := List.mem_flatMap.1 ho
    obtain ⟨⟨e, index⟩, -, ho⟩ := List.mem_filterMap.1 ho
    -- The type of an entry is one byte, and theirs have two.
    have hlt : o.code.toNat < 0x100 := by
      simp only [entryOutcome?] at ho
      split at ho <;> cases ho
      rw [code_outcomeAt]
      exact e.code_lt
    refine ⟨?_, ?_, ?_⟩ <;> intro h <;> rw [h] at hlt <;> exact absurd hlt (by decide)

/-- What comes of a pointer or of an entry does not report on its own records. -/
theorem selfChecked_of_mem_outcomes {s : Section} (hs : .found s ∈ i.outcomes) :
    s.selfChecked = false := by
  obtain ⟨hpointers, hitoc, hdtoc⟩ := code_of_mem_outcomes hs
  rw [Bool.eq_false_iff, ne_eq, Section.selfChecked_iff]
  rintro (h | h | h)
  · exact hpointers h
  · exact hitoc h
  · exact hdtoc h

/-- Sections with the code of the pointer array or of a table come of nothing else. -/
theorem sectionsOfType_perm (hi : i.Anchored) {code : SectionCode}
    (hcode : code = SectionCode.pointers ∨ code = SectionCode.itoc ∨ code = SectionCode.dtoc) :
    (i.sectionsOfType code).Perm
      ((i.pointerArraySection :: i.tables.map i.tableSection).filter (·.code = code)) := by
  -- Nothing that a pointer or an entry leads to has one of these types.
  have hnone : (i.outcomes.filterMap Located.section?).filter (·.code = code) = [] := by
    rw [List.filter_eq_nil_iff]
    intro s hs hscode
    obtain ⟨o, ho, hs⟩ := List.mem_filterMap.1 hs
    cases o with
    | cutOff => cases hs
    | found s' =>
      cases hs
      have hself : s.selfChecked = true := by
        rw [Section.selfChecked_iff, of_decide_eq_true hscode]
        exact hcode
      rw [selfChecked_of_mem_outcomes ho] at hself
      cases hself
  have hperm := (sections_perm hi).filter (·.code = code)
  rw [List.filter_append, hnone, List.append_nil] at hperm
  exact hperm

/-- **The pointer array and each table are a section once.** -/
theorem sectionsOfType_eq (hi : i.Anchored) :
    i.sectionsOfType SectionCode.pointers = [i.pointerArraySection] ∧
    i.sectionsOfType SectionCode.itoc = [i.tableSection i.itoc] ∧
    i.sectionsOfType SectionCode.dtoc = i.dtoc.toList.map i.tableSection := by
  have harray : i.pointerArraySection.code = SectionCode.pointers := rfl
  have hitoc : (i.tableSection i.itoc).code = SectionCode.itoc := congrArg tocCode hi.itoc_kind
  have hdtoc : ∀ s ∈ i.dtoc.toList.map i.tableSection, s.code = SectionCode.dtoc := by
    intro s hs
    obtain ⟨t, ht, rfl⟩ := List.mem_map.1 hs
    exact congrArg tocCode (kind_of_dtoc (Option.mem_toList.1 ht))
  have hdevice {code : SectionCode} (h : SectionCode.dtoc ≠ code) :
      (i.dtoc.toList.map i.tableSection).filter (·.code = code) = [] := by
    rw [List.filter_eq_nil_iff]
    intro s hs hcode
    exact h ((hdtoc s hs).symm.trans (of_decide_eq_true hcode))
  refine ⟨List.perm_singleton.1 ?_, List.perm_singleton.1 ?_, ?_⟩
  · refine (sectionsOfType_perm hi (Or.inl rfl)).trans (.of_eq ?_)
    rw [tables, List.map_cons, List.filter_cons_of_pos (by simp [harray]),
      List.filter_cons_of_neg (by rw [hitoc]; decide), hdevice (by decide)]
  · refine (sectionsOfType_perm hi (Or.inr (Or.inl rfl))).trans (.of_eq ?_)
    rw [tables, List.map_cons, List.filter_cons_of_neg (by rw [harray]; decide),
      List.filter_cons_of_pos (by simp [hitoc]), hdevice (by decide)]
  · have hperm := sectionsOfType_perm hi (Or.inr (Or.inr rfl))
    rw [tables, List.map_cons, List.filter_cons_of_neg (by rw [harray]; decide),
      List.filter_cons_of_neg (by rw [hitoc]; decide),
      List.filter_eq_self.2 fun s hs => decide_eq_true (hdtoc s hs)] at hperm
    -- There is one such table at most, so its order does not matter.
    cases hdtoc : i.dtoc with
    | none =>
      rw [hdtoc] at hperm
      exact List.perm_nil.1 hperm
    | some t =>
      rw [hdtoc] at hperm
      exact List.perm_singleton.1 hperm

/-! ### The result -/

/-- **All that is in an image is accounted for.** -/
structure Inventory [Algorithms] (i : Image) : Prop where
  itoc_kind : i.itoc.toc.kind = .itoc
  dtoc_kind : ∀ t, i.dtoc = some t → t.toc.kind = .dtoc
  /-- The sections are the pointer array, the tables, and what comes of pointers and entries. -/
  sections_perm : i.sections.Perm
    (i.pointerArraySection :: i.tables.map i.tableSection ++ i.outcomes.filterMap Located.section?)
  sectionsOfType_pointers : i.sectionsOfType SectionCode.pointers = [i.pointerArraySection]
  sectionsOfType_itoc : i.sectionsOfType SectionCode.itoc = [i.tableSection i.itoc]
  sectionsOfType_dtoc : i.sectionsOfType SectionCode.dtoc = i.dtoc.toList.map i.tableSection
  /-- What is reported is about the records of pointers and tables, about the sections there are, or that
  a pointer or an entry is cut off. -/
  diagnostics_perm : i.diagnostics.Perm
    (i.pointerFindings ++ i.itocFindings ++ i.dtocFindings
      ++ (i.sections.flatMap Section.findings ++ i.outcomes.filterMap Located.finding?)
      ++ overlaps i.sections ++ i.sections.flatMap crcFindings)
  /-- Beside a table without an end marker, what is cut off are pointers and entries, each of them once. -/
  truncated_perm : (i.diagnostics.filter Diagnostic.isTruncated).Perm
    ((i.tables.flatMap fun t => t.toc.endFindings t.address i.data.length)
      ++ i.outcomes.filterMap Located.finding?)

/-- **Everything reported about an image**, up to the order. -/
theorem diagnostics_perm [Algorithms] (hi : i.Anchored) : i.diagnostics.Perm
    (i.pointerFindings ++ i.itocFindings ++ i.dtocFindings
      ++ (i.sections.flatMap Section.findings ++ i.outcomes.filterMap Located.finding?)
      ++ overlaps i.sections ++ i.sections.flatMap crcFindings) :=
  (((placementFindings_perm hi).append_left _).append_right _).append_right _

/-- **What is reported as cut off**, up to the order. -/
theorem filter_isTruncated_diagnostics_perm [Algorithms] (hi : i.Anchored) :
    (i.diagnostics.filter Diagnostic.isTruncated).Perm
      ((i.tables.flatMap fun t => t.toc.endFindings t.address i.data.length)
        ++ i.outcomes.filterMap Located.finding?) := by
  -- Of all that findings come from, only tables and outcomes tell of something cut off.
  have hpointers : i.pointerFindings.filter Diagnostic.isTruncated = [] := by
    rw [List.filter_eq_nil_iff]
    intro d hd
    obtain ⟨⟨index, status⟩, -, hd⟩ := List.mem_filterMap.1 hd
    split at hd <;> cases hd
    exact Bool.false_ne_true
  have hitoc : i.itocFindings.filter Diagnostic.isTruncated
      = i.itoc.toc.endFindings i.itoc.address i.data.length := Toc.filter_isTruncated_findings _ _ _
  have hdtoc : i.dtocFindings.filter Diagnostic.isTruncated
      = i.dtoc.toList.flatMap fun t => t.toc.endFindings t.address i.data.length := by
    rw [filter_dtocFindings (fun _ _ => rfl) (fun _ _ _ => rfl)]
    exact List.flatMap_congr fun t _ => Toc.filter_isTruncated_findings _ _ _
  have hsections : (i.sections.flatMap Section.findings).filter Diagnostic.isTruncated = [] := by
    rw [List.filter_flatMap, List.flatMap_eq_nil_iff]
    exact fun s _ => Section.filter_findings (fun _ _ => rfl) (fun _ _ _ => rfl) s
  have houtcomes : (i.outcomes.filterMap Located.finding?).filter Diagnostic.isTruncated
      = i.outcomes.filterMap Located.finding? := by
    rw [List.filter_eq_self]
    intro d hd
    obtain ⟨o, -, hd⟩ := List.mem_filterMap.1 hd
    cases o <;> cases hd
    rfl
  have hoverlaps : (overlaps i.sections).filter Diagnostic.isTruncated = [] :=
    filter_overlapsFrom (fun _ _ _ _ => rfl) _ _
  have hcrc : (i.sections.flatMap crcFindings).filter Diagnostic.isTruncated = [] := by
    rw [List.filter_flatMap, List.flatMap_eq_nil_iff]
    intro s _
    rw [crcFindings]
    split
    · rfl
    · split <;> rfl
  have hperm := (diagnostics_perm hi).filter Diagnostic.isTruncated
  simp only [List.filter_append, hpointers, hitoc, hdtoc, hsections, houtcomes, hoverlaps, hcrc,
    List.nil_append, List.append_nil] at hperm
  exact hperm

/-- **No section is lost or made up**, and whatever is announced and is not there is reported. -/
theorem inventory_of_parse [Algorithms] {data : Bytes} (h : Image.parse data = .ok i) :
    i.data = data ∧ i.Inventory := by
  obtain ⟨hdata, hi⟩ := anchored_of_parse h
  obtain ⟨hpointers, hitoc, hdtoc⟩ := sectionsOfType_eq hi
  exact ⟨hdata, hi.itoc_kind, fun t ht => kind_of_dtoc ht, sections_perm hi, hpointers, hitoc, hdtoc,
    diagnostics_perm hi, filter_isTruncated_diagnostics_perm hi⟩

/-- The two entries of the small image are sections, beside its pointer array and its table. -/
theorem inventory_of_parse_smallImage : ∃ i, Image.parse smallImage = .ok i ∧ i.data = smallImage ∧
    @Inventory .standard i ∧ i.sections.length = 4 := by
  obtain ⟨i, h⟩ := exists_parse_smallImage
  obtain ⟨hdata, hinventory⟩ := @inventory_of_parse i .standard smallImage h
  have hcount : (Image.parse smallImage).toOption.map
      (fun i => (i.tables.length, (i.outcomes.filterMap Located.section?).length)) = some (1, 2) := by
    decide +kernel
  rw [h] at hcount
  obtain ⟨htables, houtcomes⟩ := Prod.mk.inj (Option.some.inj hcount)
  refine ⟨i, h, hdata, hinventory, ?_⟩
  rw [hinventory.sections_perm.length_eq, List.length_append, List.length_cons, List.length_map, htables,
    houtcomes]

end Image

end FlashImage
