import FlashImage.Algorithms.Standard
import FlashImage.Proofs.Image.Structure

/-!
# What is reported about checks

The outcome of a check is found twice: sections carry theirs, and findings are made of the pointers and
of the records of tables as they are read. A section that reports on its own records is passed over when
the sections are looked through, so that nothing is said twice.

Of all findings, the failed checks are listed one for one (`Image.filter_diagnostics`), and each of them
is a check that fails, be it of a pointer, of a record of a table or of a section (`Image.FailedCheck`,
`Image.mem_diagnostics_iff`). Since the pointer array and the tables are as valid as their records,
findings and sections agree (`Image.exists_invalid_iff`), and all failures are reported
(`Image.checksReported_of_parse`).

## Parts

* kinds of findings, and what a failed check is;
* the failed checks among the findings;
* reported failures against sections.
-/

namespace FlashImage

/-! ### Kinds of findings -/

namespace Diagnostic

/-- Whether the check of a pointer failed. -/
def isBadPointerCrc : Diagnostic → Bool
  | badPointerCrc .. => true
  | _ => false

/-- Whether the check of a record of the table of a kind failed. -/
def isBadRecordOf (kind : TocKind) : Diagnostic → Bool
  | badHeaderCrc toc .. | badEntryCrc toc .. => toc = kind
  | _ => false

/-- Whether the check of a section failed that does not report on its own records. -/
def isBadSectionCrc : Diagnostic → Bool
  | badSectionCrc .. => true
  | _ => false

end Diagnostic

/-! ### Outcomes -/

namespace CrcStatus

/-- A check fails with the two CRCs it was given, and only if they differ. -/
theorem check_eq_invalid_iff {stored computed a b : UInt16} :
    check stored computed = .invalid a b ↔ stored = a ∧ computed = b ∧ a ≠ b := by
  by_cases h : stored = computed
  · subst h
    simp only [check, if_true, reduceCtorEq, false_iff, not_and, not_not]
    rintro rfl rfl
    rfl
  · simp only [check, if_neg h, invalid.injEq]
    constructor
    · rintro ⟨rfl, rfl⟩
      exact ⟨rfl, rfl, h⟩
    · rintro ⟨rfl, rfl, -⟩
      exact ⟨rfl, rfl⟩

theorem isInvalid_iff {status : CrcStatus} :
    status.isInvalid = true ↔ ∃ stored computed, status = .invalid stored computed := by
  cases status <;> simp [isInvalid]

end CrcStatus

/-- A pointer fails its check if it is there and its CRC is not the one it should carry. -/
theorem Pointer.status_eq_invalid_iff {p : Pointer} {stored computed : UInt16} :
    p.status = .invalid stored computed ↔
      p.value ≠ absentValue ∧ p.crc = stored ∧ Crc.hardware p.covered = computed ∧
        stored ≠ computed := by
  by_cases h : p.value = absentValue
  · simp [status, isAbsent, h]
  · simp only [status, isAbsent, h, decide_false, Bool.false_eq_true, if_false, ne_eq,
      not_false_eq_true, true_and, CrcStatus.check_eq_invalid_iff]
    rfl

/-- The pointers that fail their check, by place. -/
theorem Pointers.mem_badRecords {ps : Pointers} {index : Nat} {status : CrcStatus} :
    (index, status) ∈ ps.badRecords ↔
      ∃ p, ps.records[index]? = some p ∧ p.status = status ∧ status.isInvalid = true := by
  rw [badRecords, List.mem_filter, List.mem_map]
  constructor
  · rintro ⟨⟨⟨p, n⟩, hp, heq⟩, hinvalid⟩
    obtain ⟨rfl, rfl⟩ := Prod.mk.inj heq
    exact ⟨p, List.mk_mem_zipIdx_iff_getElem?.1 hp, rfl, hinvalid⟩
  · rintro ⟨p, hp, rfl, hinvalid⟩
    exact ⟨⟨(p, index), List.mk_mem_zipIdx_iff_getElem?.2 hp, rfl⟩, hinvalid⟩

/-- The pointer array fails its check if some pointer does. -/
theorem Pointers.isInvalid_status_iff {ps : Pointers} :
    ps.status.isInvalid = true ↔ ∃ r, r ∈ ps.badRecords := by
  rw [status]
  split
  · next hnone => simp [hnone, CrcStatus.isInvalid]
  · next index status rest hcons =>
    have hmem : (index, status) ∈ ps.badRecords := hcons ▸ List.mem_cons_self
    obtain ⟨p, -, -, hinvalid⟩ := mem_badRecords.1 hmem
    exact iff_of_true hinvalid ⟨_, hmem⟩

/-- A table fails its check if its header or one of its entries does. -/
theorem Toc.isInvalid_status_iff {t : Toc} :
    t.status.isInvalid = true ↔
      t.header.status.isInvalid = true ∨ ∃ e ∈ t.entries, e.status.isInvalid = true := by
  -- The outcome for a table is the first failure in the list of all outcomes.
  have hmem : t.header.status.isInvalid = true ∨ (∃ e ∈ t.entries, e.status.isInvalid = true) ↔
      ∃ status ∈ t.header.status :: t.entries.map TocEntry.status, status.isInvalid = true := by
    simp
  rw [status, hmem]
  cases hfind : (t.header.status :: t.entries.map TocEntry.status).find? CrcStatus.isInvalid with
  | none =>
    have hall := List.find?_eq_none.1 hfind
    simp only [Option.getD_none, CrcStatus.isInvalid, Bool.false_eq_true, false_iff]
    rintro ⟨status, hstatus, hinvalid⟩
    exact hall status hstatus hinvalid
  | some status =>
    have hinvalid : status.isInvalid = true := List.find?_some hfind
    exact iff_of_true hinvalid ⟨status, List.mem_of_find?_eq_some hfind, hinvalid⟩

/-! ### What the checks of records report -/

namespace Toc

/-- **The failed checks of a table** at an address: of its header, and of its entries in order. -/
def crcFindings (t : Toc) (address : Nat) : List Diagnostic :=
  t.headerFindings address ++ t.entries.zipIdx.flatMap fun (e, index) =>
    match e.status with
    | .invalid stored computed => [.badEntryCrc t.kind index stored computed]
    | _ => []

/-- Of what is wrong with an entry, only its own check is a failed one. -/
theorem filter_entryFindings (kind : TocKind) (index : Nat) (earlier : List (UInt8 × Nat))
    (e : TocEntry) :
    (entryFindings kind index earlier e).filter Diagnostic.isCrcError =
      match e.status with
      | .invalid stored computed => [.badEntryCrc kind index stored computed]
      | _ => [] := by
  -- Repeated, misplaced and misfiled entries come one at a time, each if some condition holds.
  have hite (c : Prop) [Decidable c] {d : Diagnostic} (hd : d.isCrcError = false) :
      (if c then [d] else []).filter Diagnostic.isCrcError = [] := by
    split <;> simp [hd]
  rw [entryFindings, List.filter_append, List.filter_append, List.filter_append, hite _ rfl, hite _ rfl,
    List.append_nil, List.append_nil]
  cases earlier.getLast? with
  | none => cases e.status <;> rfl
  | some last =>
    rw [hite _ rfl, List.append_nil]
    cases e.status <;> rfl

/-- Of what is wrong with a table, the checks of its records are failed ones. -/
theorem filter_isCrcError_findings (t : Toc) (address imageSize : Nat) :
    (t.findings address ++ t.endFindings address imageSize).filter Diagnostic.isCrcError
      = t.crcFindings address := by
  have hheader : (t.headerFindings address).filter Diagnostic.isCrcError = t.headerFindings address := by
    rw [headerFindings]
    split <;> rfl
  have hend : (t.endFindings address imageSize).filter Diagnostic.isCrcError = [] := by
    rw [endFindings]
    split <;> rfl
  rw [List.filter_append, hend, List.append_nil, findings, List.filter_append, hheader, crcFindings,
    List.filter_flatMap]
  congr 1
  refine List.flatMap_congr ?_
  rintro ⟨e, index⟩ -
  exact filter_entryFindings t.kind index _ e

end Toc

/-- A section is found to be of an unknown type or not to be readable, and nothing else. -/
theorem Section.filter_findings [Algorithms] {kind : Diagnostic → Bool}
    (hunknown : ∀ code offset, kind (.unknownSectionType code offset) = false)
    (hdecode : ∀ type offset reason, kind (.decodeFailure type offset reason) = false) (s : Section) :
    s.findings.filter kind = [] := by
  rw [findings, List.filter_append, List.append_eq_nil_iff]
  constructor
  · split <;> simp [hunknown]
  · split
    · rfl
    · split <;> simp [hdecode]

namespace Image

variable {i : Image}

theorem filter_pointerFindings : i.pointerFindings.filter Diagnostic.isCrcError = i.pointerFindings := by
  refine List.filter_eq_self.2 fun d hd => ?_
  obtain ⟨⟨index, status⟩, -, hd⟩ := List.mem_filterMap.1 hd
  split at hd <;> cases hd
  rfl

/-- Findings of a kind about the device's table are about its records, unless the kind has those in it
that keep the table from being read. -/
theorem filter_dtocFindings {kind : Diagnostic → Bool}
    (hsignature : ∀ address found, kind (badDtoc address found) = false)
    (hdecode : ∀ type offset reason, kind (.decodeFailure type offset reason) = false) :
    i.dtocFindings.filter kind = i.dtoc.toList.flatMap fun t =>
      (t.toc.findings t.address ++ t.toc.endFindings t.address i.data.length).filter kind := by
  unfold dtocFindings dtoc
  cases haddress : i.dtocAddress? with
  | none =>
    rw [readDtoc, haddress]
    rfl
  | some address =>
  rw [readDtoc, haddress]
  generalize (i.pointers.address? i.format .dtoc).isSome = pointed
  simp only [Option.map_some]
  cases hread : Toc.read i.data address with
  | ok result =>
    obtain ⟨toc, findings⟩ := result
    by_cases hkind : toc.kind = .dtoc
    · obtain ⟨-, -, rfl⟩ := Toc.of_read hread
      simp only [if_pos hkind, Option.toList_some, List.flatMap_singleton]
    · -- The table of another kind is not looked at any further.
      simp only [if_neg hkind]
      cases pointed <;> simp [hsignature]
  | error e =>
    -- There is no table, and at most a finding that says so.
    cases pointed <;> cases e <;> simp [hsignature, hdecode]

theorem filter_overlapsFrom {kind : Diagnostic → Bool}
    (hoverlap : ∀ first r second q, kind (.sectionOverlap first r second q) = false)
    (furthest : Option Section) (sections : List Section) :
    (overlapsFrom furthest sections).filter kind = [] := by
  induction sections generalizing furthest with
  | nil => rfl
  | cons s rest ih =>
    cases furthest with
    | none => exact ih _
    | some p =>
      rw [overlapsFrom, List.filter_append, ih, List.append_nil]
      split <;> simp [hoverlap]

/-- An announced section is cut off, or what it says is of an unknown type or not readable. -/
theorem filter_placementFindings [Algorithms] {kind : Diagnostic → Bool}
    (hunknown : ∀ code offset, kind (.unknownSectionType code offset) = false)
    (hdecode : ∀ type offset reason, kind (.decodeFailure type offset reason) = false)
    (hcutOff : ∀ what offset length size, kind (.truncated what offset length size) = false)
    (i : Image) : (i.placements.flatMap (·.findings i.data i.encrypted)).filter kind = [] := by
  have hplacement (p : Placement) : (p.findings i.data i.encrypted).filter kind = [] := by
    rw [Placement.findings]
    split
    · simp [Placement.cutOff, hcutOff]
    · split
      · rfl
      · split
        · exact Section.filter_findings hunknown hdecode _
        · simp [Placement.cutOff, hcutOff]
  rw [List.filter_flatMap, List.flatMap_eq_nil_iff]
  exact fun p _ => hplacement p

theorem filter_crcFindings (s : Section) :
    (crcFindings s).filter Diagnostic.isCrcError = crcFindings s := by
  rw [crcFindings]
  split
  · rfl
  · split <;> rfl

/-- **The failed checks of an image**, one for one: those of the pointers, those of the records of its
tables, and those of the sections that do not report on their own records. -/
theorem filter_diagnostics [Algorithms] (i : Image) : i.diagnostics.filter Diagnostic.isCrcError
    = i.pointerFindings ++ (i.tables.flatMap fun t => t.toc.crcFindings t.address)
      ++ i.sections.flatMap crcFindings := by
  have hitoc : i.itocFindings.filter Diagnostic.isCrcError = i.itoc.toc.crcFindings i.itoc.address :=
    Toc.filter_isCrcError_findings _ _ _
  have hdtoc : i.dtocFindings.filter Diagnostic.isCrcError
      = i.dtoc.toList.flatMap fun t => t.toc.crcFindings t.address := by
    rw [filter_dtocFindings (fun _ _ => rfl) (fun _ _ _ => rfl)]
    exact List.flatMap_congr fun t _ => Toc.filter_isCrcError_findings _ _ _
  have hplacements :
      (i.placements.flatMap (·.findings i.data i.encrypted)).filter Diagnostic.isCrcError = [] :=
    filter_placementFindings (fun _ _ => rfl) (fun _ _ _ => rfl) (fun _ _ _ _ => rfl) i
  have hsections : (i.sections.flatMap crcFindings).filter Diagnostic.isCrcError
      = i.sections.flatMap crcFindings := by
    rw [List.filter_flatMap]
    exact List.flatMap_congr fun s _ => filter_crcFindings s
  have hoverlaps : (overlaps i.sections).filter Diagnostic.isCrcError = [] :=
    filter_overlapsFrom (fun _ _ _ _ => rfl) _ _
  simp only [diagnostics, List.filter_append, filter_pointerFindings, hitoc, hdtoc, hplacements,
    hoverlaps, hsections, tables, List.flatMap_cons, List.nil_append, List.append_assoc]

/-! ### Failed checks -/

/-- **A check of an image that fails**, with what is reported about it. -/
inductive FailedCheck (i : Image) : Diagnostic → Prop
  | pointer {index : Nat} {p : Pointer} (hp : i.pointers.records[index]? = some p)
      {stored computed : UInt16} (h : p.status = .invalid stored computed) :
    FailedCheck i (.badPointerCrc index stored computed)
  | header {t : PlacedToc} (ht : t ∈ i.tables) {stored computed : UInt16}
      (h : t.toc.header.status = .invalid stored computed) :
    FailedCheck i (.badHeaderCrc t.toc.kind t.address stored computed)
  | entry {t : PlacedToc} (ht : t ∈ i.tables) {index : Nat} {e : TocEntry}
      (he : t.toc.entries[index]? = some e) {stored computed : UInt16}
      (h : e.status = .invalid stored computed) :
    FailedCheck i (.badEntryCrc t.toc.kind index stored computed)
  | sectionCrc {s : Section} (hs : s ∈ i.sections) (hself : s.selfChecked = false)
      {stored computed : UInt16} (h : s.status = .invalid stored computed) :
    FailedCheck i (.badSectionCrc s.name s.offset stored computed)

theorem failedCheck_of_mem_pointerFindings {d : Diagnostic} (hd : d ∈ i.pointerFindings) :
    i.FailedCheck d := by
  obtain ⟨⟨index, status⟩, hbad, hd⟩ := List.mem_filterMap.1 hd
  obtain ⟨p, hp, hstatus, -⟩ := Pointers.mem_badRecords.1 hbad
  split at hd
  · next heq =>
    cases hd
    obtain ⟨rfl, rfl⟩ := Prod.mk.inj heq
    exact .pointer hp hstatus
  · cases hd

theorem failedCheck_of_mem_tables {t : PlacedToc} (ht : t ∈ i.tables) {d : Diagnostic}
    (hd : d ∈ t.toc.crcFindings t.address) : i.FailedCheck d := by
  rcases List.mem_append.1 hd with hheader | hentry
  · rw [Toc.headerFindings] at hheader
    split at hheader
    · next hstatus =>
      rw [List.mem_singleton.1 hheader]
      exact .header ht hstatus
    · cases hheader
  · obtain ⟨⟨e, index⟩, he, hentry⟩ := List.mem_flatMap.1 hentry
    simp only at hentry
    split at hentry
    · next hstatus =>
      rw [List.mem_singleton.1 hentry]
      exact .entry ht (List.mk_mem_zipIdx_iff_getElem?.1 he) hstatus
    · cases hentry

theorem failedCheck_of_mem_crcFindings {s : Section} (hs : s ∈ i.sections) {d : Diagnostic}
    (hd : d ∈ crcFindings s) : i.FailedCheck d := by
  rw [crcFindings] at hd
  split at hd
  · cases hd
  next hself =>
  split at hd
  · next hstatus =>
    rw [List.mem_singleton.1 hd]
    exact .sectionCrc hs (Bool.eq_false_iff.2 hself) hstatus
  · cases hd

/-- **A failed check is reported, and nothing else is reported as one.** -/
theorem mem_diagnostics_iff [Algorithms] {d : Diagnostic} (hd : d.isCrcError = true) :
    d ∈ i.diagnostics ↔ i.FailedCheck d := by
  have hfilter : d ∈ i.diagnostics ↔ d ∈ i.diagnostics.filter Diagnostic.isCrcError := by
    rw [List.mem_filter, and_iff_left hd]
  rw [hfilter, filter_diagnostics, List.mem_append, List.mem_append, List.mem_flatMap, List.mem_flatMap]
  constructor
  · rintro ((hd | ⟨t, ht, hd⟩) | ⟨s, hs, hd⟩)
    · exact failedCheck_of_mem_pointerFindings hd
    · exact failedCheck_of_mem_tables ht hd
    · exact failedCheck_of_mem_crcFindings hs hd
  · rintro (⟨hp, h⟩ | ⟨ht, h⟩ | ⟨ht, he, h⟩ | ⟨hs, hself, h⟩)
    · have hbad := Pointers.mem_badRecords.2 ⟨_, hp, h, rfl⟩
      exact Or.inl (Or.inl (List.mem_filterMap.2 ⟨_, hbad, rfl⟩))
    · refine Or.inl (Or.inr ⟨_, ht, List.mem_append_left _ ?_⟩)
      simp [Toc.headerFindings, h]
    · refine Or.inl (Or.inr ⟨_, ht, List.mem_append_right _ ?_⟩)
      refine List.mem_flatMap.2 ⟨_, List.mk_mem_zipIdx_iff_getElem?.2 he, ?_⟩
      simp [h]
    · refine Or.inr ⟨_, hs, ?_⟩
      simp [crcFindings, hself, h]

/-! ### Findings and sections -/

/-- The table of the device is of its own kind. -/
theorem kind_of_dtoc {t : PlacedToc} (ht : i.dtoc = some t) : t.toc.kind = .dtoc := by
  unfold dtoc at ht
  split at ht
  · split at ht
    · next hkind =>
      cases ht
      exact hkind
    · cases ht
  · cases ht

/-- An image has one table of a kind. -/
theorem eq_of_kind (hi : i.Anchored) {t u : PlacedToc} (ht : t ∈ i.tables) (hu : u ∈ i.tables)
    (hkind : t.toc.kind = u.toc.kind) : t = u := by
  rcases List.mem_cons.1 ht with rfl | ht <;> rcases List.mem_cons.1 hu with rfl | hu
  · rfl
  · rw [hi.itoc_kind, kind_of_dtoc (Option.mem_toList.1 hu)] at hkind
    cases hkind
  · rw [hi.itoc_kind, kind_of_dtoc (Option.mem_toList.1 ht)] at hkind
    cases hkind
  · exact Option.some.inj ((Option.mem_toList.1 ht).symm.trans (Option.mem_toList.1 hu))

theorem tocCode_injective : Function.Injective tocCode := by
  intro k l h
  cases k <;> cases l <;> first | rfl | cases h

/-- The pointers of an image fail their checks if some failed check of a pointer is reported. -/
theorem pointers_isInvalid_iff :
    i.pointers.status.isInvalid = true ↔ ∃ d, i.FailedCheck d ∧ d.isBadPointerCrc = true := by
  rw [Pointers.isInvalid_status_iff]
  constructor
  · rintro ⟨⟨index, status⟩, hbad⟩
    obtain ⟨p, hp, hstatus, hinvalid⟩ := Pointers.mem_badRecords.1 hbad
    obtain ⟨stored, computed, rfl⟩ := CrcStatus.isInvalid_iff.1 hinvalid
    exact ⟨_, .pointer hp hstatus, rfl⟩
  · rintro ⟨d, hd, hkind⟩
    cases hd with
    | pointer hp h => exact ⟨_, Pointers.mem_badRecords.2 ⟨_, hp, h, rfl⟩⟩
    | header ht h => cases hkind
    | entry ht he h => cases hkind
    | sectionCrc hs hself h => cases hkind

/-- A table of an image fails its checks if some failed check of a record of its kind is reported. -/
theorem table_isInvalid_iff (hi : i.Anchored) {t : PlacedToc} (ht : t ∈ i.tables) :
    t.toc.status.isInvalid = true ↔ ∃ d, i.FailedCheck d ∧ d.isBadRecordOf t.toc.kind = true := by
  rw [Toc.isInvalid_status_iff]
  constructor
  · rintro (hinvalid | ⟨e, he, hinvalid⟩)
    · obtain ⟨stored, computed, h⟩ := CrcStatus.isInvalid_iff.1 hinvalid
      exact ⟨_, .header ht h, by simp [Diagnostic.isBadRecordOf]⟩
    · obtain ⟨stored, computed, h⟩ := CrcStatus.isInvalid_iff.1 hinvalid
      obtain ⟨index, he⟩ := List.mem_iff_getElem?.1 he
      exact ⟨_, .entry ht he h, by simp [Diagnostic.isBadRecordOf]⟩
  · rintro ⟨d, hd, hkind⟩
    -- A finding names the kind of its table, and no two tables are of one kind.
    cases hd with
    | pointer hp h => cases hkind
    | header hu h =>
      obtain rfl := eq_of_kind hi hu ht (of_decide_eq_true hkind)
      exact Or.inl (CrcStatus.isInvalid_iff.2 ⟨_, _, h⟩)
    | entry hu he h =>
      obtain rfl := eq_of_kind hi hu ht (of_decide_eq_true hkind)
      exact Or.inr ⟨_, List.mem_of_getElem? he, CrcStatus.isInvalid_iff.2 ⟨_, _, h⟩⟩
    | sectionCrc hs hself h => cases hkind

/-- **Some section fails its check if some failed check is reported**, and only then. -/
theorem exists_invalid_iff (hi : i.Anchored) :
    (∃ s ∈ i.sections, s.status.isInvalid = true) ↔ ∃ d, i.FailedCheck d := by
  constructor
  · rintro ⟨s, hs, hinvalid⟩
    by_cases hself : s.selfChecked = true
    · -- The pointer array and the tables say nothing of themselves: one of their records does.
      rcases Section.selfChecked_iff.1 hself with hcode | hcode
      · rw [eq_pointerArraySection hi hs hcode, status_pointerArraySection hi] at hinvalid
        obtain ⟨d, hd, -⟩ := pointers_isInvalid_iff.1 hinvalid
        exact ⟨d, hd⟩
      · obtain ⟨t, ht, rfl⟩ := exists_eq_tableSection hi hs hcode
        rw [status_tableSection hi ht] at hinvalid
        obtain ⟨d, hd, -⟩ := (table_isInvalid_iff hi ht).1 hinvalid
        exact ⟨d, hd⟩
    · obtain ⟨stored, computed, h⟩ := CrcStatus.isInvalid_iff.1 hinvalid
      exact ⟨_, .sectionCrc hs (Bool.eq_false_iff.2 hself) h⟩
  · rintro ⟨d, hd⟩
    have hreported := hd
    -- A record that fails makes the section that it stands in fail.
    cases hd with
    | pointer hp h =>
      refine ⟨_, pointerArraySection_mem hi, ?_⟩
      rw [status_pointerArraySection hi]
      exact pointers_isInvalid_iff.2 ⟨_, hreported, rfl⟩
    | header ht h =>
      refine ⟨_, tableSection_mem hi ht, ?_⟩
      rw [status_tableSection hi ht]
      exact (table_isInvalid_iff hi ht).2 ⟨_, hreported, decide_eq_true rfl⟩
    | entry ht he h =>
      refine ⟨_, tableSection_mem hi ht, ?_⟩
      rw [status_tableSection hi ht]
      exact (table_isInvalid_iff hi ht).2 ⟨_, hreported, decide_eq_true rfl⟩
    | sectionCrc hs hself h => exact ⟨_, hs, CrcStatus.isInvalid_iff.2 ⟨_, _, h⟩⟩

/-- What is reported about the failed check of a section, unless it is the pointer array or a table. -/
def badSectionCrc? (s : Section) : Option Diagnostic :=
  if s.code = SectionCode.pointers ∨ s.code = SectionCode.itoc ∨ s.code = SectionCode.dtoc then none
  else match s.status with
    | .invalid stored computed => some (.badSectionCrc s.name s.offset stored computed)
    | _ => none

theorem crcFindings_eq (s : Section) : crcFindings s = (badSectionCrc? s).toList := by
  simp only [crcFindings, badSectionCrc?, Section.selfChecked_iff]
  split
  · rfl
  · cases s.status <;> rfl

/-- **The failed checks of sections**, one for one. -/
theorem filter_isBadSectionCrc [Algorithms] (i : Image) :
    i.diagnostics.filter Diagnostic.isBadSectionCrc = i.sections.filterMap badSectionCrc? := by
  -- They are failed checks, so they are among those of the image.
  have hcrc : i.diagnostics.filter Diagnostic.isBadSectionCrc
      = (i.diagnostics.filter Diagnostic.isCrcError).filter Diagnostic.isBadSectionCrc := by
    rw [List.filter_filter]
    refine List.filter_congr fun d _ => ?_
    cases d <;> rfl
  have hpointers : i.pointerFindings.filter Diagnostic.isBadSectionCrc = [] := by
    refine List.filter_eq_nil_iff.2 fun d hd => ?_
    obtain ⟨⟨index, status⟩, -, hd⟩ := List.mem_filterMap.1 hd
    split at hd <;> cases hd
    exact Bool.false_ne_true
  have htables : (i.tables.flatMap fun t => t.toc.crcFindings t.address).filter Diagnostic.isBadSectionCrc
      = [] := by
    rw [List.filter_flatMap, List.flatMap_eq_nil_iff]
    intro t _
    rw [Toc.crcFindings, List.filter_append, List.filter_flatMap, List.append_eq_nil_iff,
      List.flatMap_eq_nil_iff]
    constructor
    · rw [Toc.headerFindings]
      split <;> rfl
    · rintro ⟨e, index⟩ -
      simp only
      split <;> rfl
  have hsection (s : Section) :
      (crcFindings s).filter Diagnostic.isBadSectionCrc = (badSectionCrc? s).toList := by
    rw [crcFindings_eq, badSectionCrc?]
    split
    · rfl
    · split <;> rfl
  rw [hcrc, filter_diagnostics, List.filter_append, List.filter_append, hpointers, htables,
    List.nil_append, List.nil_append, List.filter_flatMap, List.filterMap_eq_flatMap_toList]
  exact List.flatMap_congr fun s _ => hsection s

/-! ### The result -/

/-- **What an image reports about its checks** is what they come out as: no failure is passed over, and
none is made up. -/
structure ChecksReported [Algorithms] (i : Image) : Prop where
  /-- A failure is reported if some section fails its check. -/
  hasCrcErrors_iff : i.hasCrcErrors = true ↔ ∃ s ∈ i.sections, s.status.isInvalid = true
  /-- A pointer is reported if it is there and carries another CRC than that of its bytes. -/
  badPointerCrc_iff (index : Nat) (stored computed : UInt16) :
    .badPointerCrc index stored computed ∈ i.diagnostics ↔
      ∃ p, i.pointers.records[index]? = some p ∧ p.value ≠ Pointer.absentValue ∧ p.crc = stored ∧
        Crc.hardware p.covered = computed ∧ stored ≠ computed
  badHeaderCrc_iff (kind : TocKind) (address : Nat) (stored computed : UInt16) :
    .badHeaderCrc kind address stored computed ∈ i.diagnostics ↔
      ∃ t ∈ i.tables, t.toc.kind = kind ∧ t.address = address ∧
        t.toc.header.status = .invalid stored computed
  badEntryCrc_iff (kind : TocKind) (index : Nat) (stored computed : UInt16) :
    .badEntryCrc kind index stored computed ∈ i.diagnostics ↔
      ∃ t ∈ i.tables, t.toc.kind = kind ∧
        ∃ e, t.toc.entries[index]? = some e ∧ e.status = .invalid stored computed
  /-- Every other section that fails its check is reported once, by place. -/
  badSectionCrc_eq : i.diagnostics.filter Diagnostic.isBadSectionCrc = i.sections.filterMap badSectionCrc?
  /-- The pointer array is invalid if some pointer is reported. -/
  pointers_invalid_iff : ∀ s ∈ i.sections, s.code = SectionCode.pointers →
    (s.status.isInvalid = true ↔ ∃ d ∈ i.diagnostics, d.isBadPointerCrc = true)
  /-- A table is invalid if some of its records is reported. -/
  table_invalid_iff (kind : TocKind) : ∀ s ∈ i.sections, s.code = tocCode kind →
    (s.status.isInvalid = true ↔ ∃ d ∈ i.diagnostics, d.isBadRecordOf kind = true)

/-- Being reported is being the outcome of a failed check, for any kind of failed checks. -/
theorem exists_mem_diagnostics_iff [Algorithms] {kind : Diagnostic → Bool}
    (hkind : ∀ d, kind d = true → d.isCrcError = true) :
    (∃ d ∈ i.diagnostics, kind d = true) ↔ ∃ d, i.FailedCheck d ∧ kind d = true := by
  refine exists_congr fun d => and_congr_left fun hd => ?_
  exact mem_diagnostics_iff (hkind d hd)

/-- **All failed checks of an image are reported, and no others.** -/
theorem checksReported_of_parse [Algorithms] {data : Bytes} (h : Image.parse data = .ok i) :
    i.ChecksReported := by
  have hi := (anchored_of_parse h).2
  refine ⟨?_, ?_, ?_, ?_, i.filter_isBadSectionCrc, ?_, ?_⟩
  · rw [exists_invalid_iff hi, hasCrcErrors, List.any_eq_true,
      exists_mem_diagnostics_iff fun d hd => hd]
    refine exists_congr fun d => and_iff_left_of_imp fun hd => ?_
    cases hd <;> rfl
  · intro index stored computed
    rw [mem_diagnostics_iff rfl]
    constructor
    · rintro ⟨hp, hstatus⟩
      exact ⟨_, hp, Pointer.status_eq_invalid_iff.1 hstatus⟩
    · rintro ⟨p, hp, hstatus⟩
      exact .pointer hp (Pointer.status_eq_invalid_iff.2 hstatus)
  · intro kind address stored computed
    rw [mem_diagnostics_iff rfl]
    constructor
    · rintro (_ | ⟨ht, hstatus⟩)
      exact ⟨_, ht, rfl, rfl, hstatus⟩
    · rintro ⟨t, ht, rfl, rfl, hstatus⟩
      exact .header ht hstatus
  · intro kind index stored computed
    rw [mem_diagnostics_iff rfl]
    constructor
    · rintro (_ | _ | ⟨ht, he, hstatus⟩)
      exact ⟨_, ht, rfl, _, he, hstatus⟩
    · rintro ⟨t, ht, rfl, e, he, hstatus⟩
      exact .entry ht he hstatus
  · intro s hs hcode
    -- The section of the pointers is checked by its records, which have findings of their own.
    rw [eq_pointerArraySection hi hs hcode, status_pointerArraySection hi, pointers_isInvalid_iff,
      exists_mem_diagnostics_iff]
    intro d hd
    cases d <;> first | rfl | cases hd
  · intro kind s hs hcode
    -- So is the section of a table.
    obtain ⟨t, ht, rfl⟩ := exists_eq_tableSection hi hs (by rw [hcode]; cases kind <;> simp [tocCode])
    obtain rfl := tocCode_injective hcode
    rw [status_tableSection hi ht, table_isInvalid_iff hi ht, exists_mem_diagnostics_iff]
    intro d hd
    cases d <;> first | rfl | cases hd

/-- The pointer to the table of the small image carries no CRC that holds, which is reported. -/
theorem checksReported_of_parse_smallImage : ∃ i, Image.parse smallImage = .ok i ∧
    @ChecksReported .standard i ∧
    .badPointerCrc 2 0 (Crc.hardware [0, 0, 0, 152, 0, 0]) ∈ @diagnostics .standard i := by
  obtain ⟨i, h⟩ := exists_parse_smallImage
  have hreported := @checksReported_of_parse i .standard smallImage h
  have hpointer :
      (Image.parse smallImage).toOption.bind (·.pointers.records[2]?) = some ⟨152, 0, 0⟩ := by
    decide +kernel
  rw [h] at hpointer
  refine ⟨i, h, hreported, ?_⟩
  exact (hreported.badPointerCrc_iff 2 0 _).2 ⟨_, hpointer, by decide, rfl, rfl, by decide +kernel⟩

end Image

end FlashImage
