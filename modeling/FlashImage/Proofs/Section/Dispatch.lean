import FlashImage.Proofs.Image.Structure
import FlashImage.Proofs.Machine.Sections
import FlashImage.Proofs.Section.WellFormed

/-!
# What becomes of a section

Where the CRC of a section is, whether it is split off, what the check says and in which form the contents
are shown is decided by rules that override one another: the type names a place, the entry may deny it or
be missing, the section may be too short or have the wrong length for its kind, the image may be encrypted,
and the pointer array and the tables are left out of all this. `Section.Dispatched` says what comes out,
and `Section.dispatched` that it comes out for every section whatever rules meet.

* A section has both a stored and a computed CRC or none at all (`Section.crcs_of_place`), so a check is
  made unless something is encrypted: there is no third reason to skip it (`Section.status_cases`).
* Contents that are shown in a form have the form of their kind (`Projection.hasForm_of_decode`), since
  each decoder gives one form only, and failing to do so is reported once.
-/

namespace FlashImage

namespace CrcStatus

/-- A check that is made is not left out. -/
theorem check_ne (stored computed : UInt16) :
    check stored computed ≠ notApplicable ∧ check stored computed ≠ skipped := by
  by_cases h : stored = computed <;> simp [check, h]

end CrcStatus

namespace Projection

/-- **The form of a kind of contents.** Signatures and keys are of the length that the kind says. -/
def HasForm (family : Family) : Projection → Prop
  | pointers _ => family = .pointers
  | toc _ => family = .toc
  | imageInfo _ => family = .imageInfo
  | deviceInfo _ => family = .deviceInfo
  | mfgInfo _ => family = .mfgInfo
  | boot2 _ => family = .boot2
  | hashesTable _ => family = .hashesTable
  | resetInfo _ => family = .resetInfo
  | imageSignature s => ∃ length, family = .imageSignature length ∧ s.signature.length = length.toNat
  | publicKeys ks => ∃ length, family = .publicKeys length ∧ ∀ k ∈ ks.keys, k.key.length = length.toNat
  | forbiddenVersions _ => family = .forbiddenVersions
  | debugIni _ => family = .debugIni
  | debugParams _ => family = .debugParams
  | blob _ => family = .blob ∨ family = .vpd
  | toolsArea _ => family = .toolsArea
  | raw _ => family = .generic

/-- **Contents are shown in the form of their kind.** -/
theorem hasForm_of_decode [Algorithms] {family : Family} {d : Bytes} {p : Projection}
    (h : decode family d = .ok p) : p.HasForm family := by
  cases family with
  | generic | debugParams =>
    cases h
    rfl
  | blob =>
    cases h
    exact .inl rfl
  | vpd =>
    cases h
    exact .inr rfl
  | imageSignature length =>
    obtain ⟨s, hs, rfl⟩ := exists_of_map_eq_ok h
    exact ⟨length, rfl, (ImageSignature.wellFormed_of_decode hs).signature⟩
  | publicKeys length =>
    obtain ⟨ks, hks, rfl⟩ := exists_of_map_eq_ok h
    exact ⟨length, rfl, fun k hk => ((PublicKeys.wellFormed_of_decode hks).keys k hk).key⟩
  | _ =>
    obtain ⟨x, -, rfl⟩ := exists_of_map_eq_ok h
    rfl

end Projection

namespace Section

variable {s : Section}

/-! ### The check -/

theorem selfChecked_of_notMem
    (hcode : s.code ∉ [SectionCode.pointers, SectionCode.itoc, SectionCode.dtoc]) :
    s.selfChecked = false := by
  simpa [← Bool.not_eq_true, selfChecked_iff] using hcode

/-- **The outcomes of a check**, apart from the pointer array and the tables. -/
theorem status_cases (hself : s.selfChecked = false) :
    s.place = .none ∧ s.status = .notApplicable ∨
      s.place ≠ .none ∧ s.encrypted = true ∧ s.status = .skipped ∨
      s.place ≠ .none ∧ s.encrypted = false ∧ ∃ stored computed, s.status = .check stored computed := by
  obtain ⟨hplace, hstored⟩ | ⟨hplace, stored, computed, hstored, hcomputed⟩ := crcs_of_place s
  · exact .inl ⟨hplace, by rw [status_of_not_selfChecked hself, hstored]⟩
  · -- There is a CRC and something that it covers, so encryption is the only reason not to check.
    have hstatus := status_of_crc hself hstored hcomputed
    cases henc : s.encrypted with
    | true => exact .inr (.inl ⟨hplace, rfl, by rw [hstatus, henc]; rfl⟩)
    | false => exact .inr (.inr ⟨hplace, rfl, stored, computed, by rw [hstatus, henc]; rfl⟩)

theorem status_eq_notApplicable_iff (hself : s.selfChecked = false) :
    s.status = .notApplicable ↔ s.place = .none := by
  obtain ⟨hplace, hstatus⟩ | ⟨hplace, -, hstatus⟩ | ⟨hplace, -, stored, computed, hstatus⟩ :=
    status_cases hself
  · simp [hplace, hstatus]
  · simp [hplace, hstatus]
  · simp [hplace, hstatus, CrcStatus.check_ne]

theorem status_eq_skipped_iff (hself : s.selfChecked = false) :
    s.status = .skipped ↔ s.place ≠ .none ∧ s.encrypted = true := by
  obtain ⟨hplace, hstatus⟩ | ⟨hplace, henc, hstatus⟩ | ⟨-, henc, stored, computed, hstatus⟩ :=
    status_cases hself
  · simp [hplace, hstatus]
  · simp [hplace, henc, hstatus]
  · simp [henc, hstatus, CrcStatus.check_ne]

/-- A CRC in the entry is compared with the one of the whole section. -/
theorem status_of_entry (hplace : s.place = .entry) (henc : s.encrypted = false) :
    ∃ e, s.entry = some e ∧ s.status = .check e.sectionCrc (Crc.software s.data) := by
  obtain ⟨e, he, hstored, hcomputed⟩ := exists_crcs_of_entry hplace
  exact ⟨e, he, status_of_plain (by rw [hplace]; decide) hstored hcomputed henc⟩

/-- A CRC at the end is compared with the one of everything before it. -/
theorem status_of_trailer (hplace : s.place = .trailer) (henc : s.encrypted = false) :
    s.status = .check (s.type.slot.get (s.data.u32At (s.data.length - trailerSize)))
      (Crc.software (s.data.take (s.data.length - trailerSize))) := by
  obtain ⟨hstored, hcomputed⟩ := crcs_of_trailer hplace
  exact status_of_plain (by rw [hplace]; decide) hstored hcomputed henc

/-! ### Contents -/

theorem family_of_unknown (h : s.code.type?.isNone) : s.type.family = .generic := by
  rw [Option.isNone_iff_eq_none] at h
  rw [type, h]
  rfl

theorem project_of_generic [Algorithms] (h : s.type.family = .generic) :
    s.project = .ok (.raw "opaque") := by
  have hfits : s.misfits = false := by simp [misfits, h]
  refine project_of_decode hfits ?_ ?_
  · rw [h]
    rfl
  · -- Opaque contents are kept as bytes.
    intro hkeeps
    cases hkeeps

theorem hasForm_of_project [Algorithms] {p : Projection} (h : s.project = .ok p) :
    p.HasForm s.type.family :=
  Projection.hasForm_of_decode (of_project h).1

theorem isNone_type? (h : s.type.family ≠ .generic) : s.code.type?.isNone = false := by
  rw [← Bool.not_eq_true]
  intro hnone
  exact h (family_of_unknown hnone)

/-- Contents that are projected are shown as they are projected, and nothing is reported. -/
theorem shown_of_ok [Algorithms] (hknown : s.type.family ≠ .generic) (henc : s.encrypted = false)
    {p : Projection} (h : s.project = .ok p) : s.projection = p ∧ s.findings = [] := by
  constructor
  · simp [projection, isNone_type? hknown, henc, h]
  · simp [findings, isNone_type? hknown, henc, h]

/-- Contents that are not projected are kept as bytes, and one failure is reported. -/
theorem shown_of_error [Algorithms] (hknown : s.type.family ≠ .generic) (henc : s.encrypted = false)
    {e : DecodeError} (h : s.project = .error e) :
    s.projection = .raw e.message ∧ s.findings = [.decodeFailure s.name s.offset e.message] := by
  constructor
  · simp [projection, isNone_type? hknown, henc, h]
  · simp [findings, isNone_type? hknown, henc, h]

/-- **Contents of a known form are shown in it, or one failure is reported**, that they could not be
projected. -/
theorem projection_of_known [Algorithms] (hknown : s.type.family ≠ .generic)
    (henc : s.encrypted = false) :
    (∃ e, s.project = .error e ∧ s.projection = .raw e.message ∧
        s.findings = [.decodeFailure s.name s.offset e.message]) ∨
      s.project = .ok s.projection ∧ s.projection.isDecoded = true ∧
        s.projection.HasForm s.type.family ∧ s.findings = [] := by
  cases hproject : s.project with
  | error e => exact .inl ⟨e, rfl, shown_of_error hknown henc hproject⟩
  | ok p =>
    obtain ⟨hprojection, hfindings⟩ := shown_of_ok hknown henc hproject
    have hform := hasForm_of_project hproject
    rw [hprojection]
    refine .inr ⟨rfl, ?_, hform, hfindings⟩
    -- Only opaque contents have no form of their own.
    cases p with
    | raw note => exact absurd hform hknown
    | _ => rfl

/-- **Contents that are opaque or encrypted are not shown**, which is no failure. -/
theorem projection_of_opaque [Algorithms] (h : s.type.family = .generic ∨ s.encrypted = true) :
    s.projection = .raw (if s.code.type?.isNone then "unknown section type"
        else if s.encrypted then "encrypted" else "opaque") ∧
      s.findings = if s.code.type?.isNone then [.unknownSectionType s.code s.offset] else [] := by
  cases henc : s.encrypted with
  | true => simp [projection, findings, henc, apply_ite Projection.raw]
  | false =>
    rw [henc] at h
    have hproject := project_of_generic (h.resolve_right Bool.false_ne_true)
    simp [projection, findings, henc, hproject, apply_ite Projection.raw]

/-! ### All rules together -/

/-- **What becomes of a section.** -/
structure Dispatched [Algorithms] (s : Section) : Prop where
  /-- The CRC is where the type says, if nothing denies it and the place is there. -/
  inEntry : s.place = .entry ↔
    (s.entry.any TocEntry.noCrc || s.misfits) = false ∧ s.type.place = .entry ∧ s.entry.isSome = true
  atEnd : s.place = .trailer ↔
    (s.entry.any TocEntry.noCrc || s.misfits) = false ∧ s.type.place = .trailer ∧
      trailerSize ≤ s.data.length
  denied : s.entry.any TocEntry.noCrc = true → s.place = .none
  /-- A dword is split off only as the CRC at the end of contents that are not encrypted. -/
  split : s.stripped = true ↔ s.place = .trailer ∧ s.encrypted = false
  parts : s.stripped = true → trailerSize ≤ s.data.length ∧
    ∃ dword, s.trailer = some dword ∧ s.payload ++ Bytes.u32 dword = s.data
  whole : s.stripped = false → s.payload = s.data ∧ s.trailer = none
  notApplicable : s.code ∉ [SectionCode.pointers, SectionCode.itoc, SectionCode.dtoc] →
    (s.status = .notApplicable ↔ s.place = .none)
  skipped : s.code ∉ [SectionCode.pointers, SectionCode.itoc, SectionCode.dtoc] →
    (s.status = .skipped ↔ s.place ≠ .none ∧ s.encrypted = true)
  /-- A CRC in the entry covers the whole section. -/
  entry : s.place = .entry → s.encrypted = false →
    ∃ e, s.entry = some e ∧ s.status = .check e.sectionCrc (Crc.software s.data)
  /-- A CRC at the end covers everything before it. -/
  trailer : s.place = .trailer → s.encrypted = false →
    s.status = .check (s.type.slot.get (s.data.u32At (s.data.length - trailerSize)))
      (Crc.software (s.data.take (s.data.length - trailerSize)))
  known : s.type.family ≠ .generic → s.encrypted = false →
    (∃ e, s.project = .error e ∧ s.projection = .raw e.message ∧
        s.findings = [.decodeFailure s.name s.offset e.message]) ∨
      s.project = .ok s.projection ∧ s.projection.isDecoded = true ∧
        s.projection.HasForm s.type.family ∧ s.findings = []
  /-- An unknown type is reported, and nothing else about contents that are not shown. -/
  notShown : s.type.family = .generic ∨ s.encrypted = true →
    s.projection = .raw (if s.code.type?.isNone then "unknown section type"
        else if s.encrypted then "encrypted" else "opaque") ∧
      s.findings = if s.code.type?.isNone then [.unknownSectionType s.code s.offset] else []
  /-- All this is found out in one go when the section is made. -/
  loaded : s.data.length < 2 ^ 63 → Machine.load s = .ok (.of s, s.findings)

/-- **Every section is dispatched so**, whatever its type, its entry, its length and the image say. -/
theorem dispatched [Algorithms] (s : Section) : s.Dispatched where
  inEntry := place_eq_entry_iff
  atEnd := place_eq_trailer_iff
  denied h := by simp [place, h]
  split := by rw [stripped, Bool.and_eq_true, decide_eq_true_eq, Bool.not_eq_true']
  parts h := ⟨(of_stripped h).2.2, payload_append_trailer h⟩
  whole h := by simp [payload, trailer, h]
  notApplicable hcode := status_eq_notApplicable_iff (selfChecked_of_notMem hcode)
  skipped hcode := status_eq_skipped_iff (selfChecked_of_notMem hcode)
  entry := status_of_entry
  trailer := status_of_trailer
  known := projection_of_known
  notShown := projection_of_opaque
  loaded := Machine.load_eq

end Section

end FlashImage
