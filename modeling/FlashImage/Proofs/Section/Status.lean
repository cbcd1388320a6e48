import FlashImage.Proofs.Bytes.Parts
import FlashImage.Proofs.Catalog
import FlashImage.Proofs.Outcome
import FlashImage.Section

/-!
# How a section is checked and projected

Where the CRC of a section is follows from its type, its entry and its length (`Section.place_congr`), and
a section with a CRC of its own is checked by comparing what is stored with what is computed
(`Section.status_of_crc`): neither the pointer array nor a table is such a section. A section whose last
dword is split off is one that has its CRC there and is not encrypted.

What is projected is what is read from the contents, as long as these are kept beside it or it stands for
them (`Section.of_project`, `Section.project_of_decode`).
-/

namespace FlashImage

namespace CrcStatus

/-- A check has one of two outcomes. -/
theorem check_eq_valid_iff {stored computed : UInt16} :
    check stored computed = valid ↔ (check stored computed).isInvalid = false := by
  by_cases h : stored = computed <;> simp [check, h, isInvalid]

/-- A check succeeds on equal values only. -/
theorem eq_of_check {stored computed : UInt16} (h : check stored computed = valid) : stored = computed := by
  by_contra hne
  rw [check, if_neg hne] at h
  cases h

/-- A CRC is valid if it is what was computed. -/
@[simp] theorem check_self (crc : UInt16) : check crc crc = valid := if_pos rfl

end CrcStatus

namespace Section

variable {s : Section}

/-- A section of a known form has a type of the catalog. -/
theorem mem_catalog (h : s.type.family ≠ .generic) : (s.code, s.type) ∈ catalog := by
  cases htype : s.code.type? with
  | none =>
    rw [Section.type, htype] at h
    exact absurd rfl h
  | some t =>
    have ht : s.type = t := by rw [Section.type, htype, Option.getD_some]
    rw [ht]
    exact SectionCode.mem_catalog htype

/-! ### The place of the CRC -/

/-- A type that carries no CRC has no place for one. -/
theorem place_of_type (h : s.type.place = .none) : s.place = .none := by
  rw [place, h]
  exact ite_self _

/-- A section whose type carries no CRC is all contents. -/
theorem payload_of_place (h : s.type.place = .none) : s.payload = s.data := by
  rw [payload, if_neg]
  simp [stripped, place_of_type h]

/-- **The place of the CRC** depends on the type of a section, its length, and what its entry says about
a CRC. -/
theorem place_congr {t : Section} (hcode : s.code = t.code) (hlength : s.data.length = t.data.length)
    (hentry : s.entry.isSome = t.entry.isSome)
    (hnoCrc : s.entry.any TocEntry.noCrc = t.entry.any TocEntry.noCrc) : s.place = t.place := by
  have htype : s.type = t.type := by rw [type, type, hcode]
  rw [place, place, misfits, misfits, htype, hlength, hentry, hnoCrc]

/-- **A CRC stands at the end of a section** if its type says so, neither its entry nor its length denies
it, and there is room for it. -/
theorem place_eq_trailer_iff : s.place = .trailer ↔
    (s.entry.any TocEntry.noCrc || s.misfits) = false ∧ s.type.place = .trailer ∧
      trailerSize ≤ s.data.length := by
  rw [place]
  split
  · next hdenied => simp [hdenied]
  next hallowed =>
  split
  · next htype => simp [htype]
  · next htype =>
    rw [htype]
    split <;> simp
  · next htype =>
    simp only [hallowed, htype, true_and]
    split <;> simp <;> omega

/-- **A CRC stands in the entry** if the type of the section says so, there is an entry that does not deny
it, and the length does not either. -/
theorem place_eq_entry_iff : s.place = .entry ↔
    (s.entry.any TocEntry.noCrc || s.misfits) = false ∧ s.type.place = .entry ∧ s.entry.isSome = true := by
  rw [place]
  split
  · next hdenied => simp [hdenied]
  next hallowed =>
  split
  · next htype => simp [htype]
  · next htype =>
    simp only [hallowed, htype, true_and]
    split <;> simp [*]
  · next htype =>
    rw [htype]
    split <;> simp

/-- A section with its CRC in the entry has an entry. -/
theorem exists_entry_of_place (h : s.place = .entry) : ∃ e, s.entry = some e :=
  Option.isSome_iff_exists.1 (place_eq_entry_iff.1 h).2.2

/-- A CRC stands at the end of a section only where the type says so and there is room for it. -/
theorem of_stripped (h : s.stripped = true) :
    s.place = .trailer ∧ s.type.place = .trailer ∧ trailerSize ≤ s.data.length := by
  rw [stripped, Bool.and_eq_true, decide_eq_true_eq] at h
  exact ⟨h.1, (place_eq_trailer_iff.1 h.1).2⟩

/-- A CRC dword is split off in every image that is not encrypted. -/
theorem stripped_of_trailer (hplace : s.place = .trailer) (hplain : s.encryptedImage = false) :
    s.stripped = true := by
  rw [stripped, hplace, encrypted, hplain]
  rfl

/-- The contents of a section that is split are not encrypted. -/
theorem encrypted_of_stripped (h : s.stripped = true) : s.encrypted = false := by
  rw [stripped, Bool.and_eq_true, Bool.not_eq_true'] at h
  exact h.2

/-- The contents of a section and the CRC dword that is split off make up the section. -/
theorem payload_append_trailer (h : s.stripped = true) :
    ∃ dword, s.trailer = some dword ∧ s.payload ++ Bytes.u32 dword = s.data := by
  obtain ⟨-, -, hroom⟩ := of_stripped h
  unfold trailerSize at hroom
  refine ⟨s.data.u32At (s.data.length - trailerSize), by rw [trailer, if_pos h], ?_⟩
  rw [payload, if_pos h]
  unfold trailerSize
  rw [Bytes.u32_u32At (by omega), Bytes.take_append_slice, List.take_of_length_le (by omega)]

/-- A CRC dword that is split off is one of the software kind. -/
theorem algorithm_of_stripped (h : s.stripped = true) : s.type.algorithm = .software := by
  have hplace := (of_stripped h).2.1
  rw [type] at hplace ⊢
  cases htype : s.code.type? with
  | none => rfl
  | some t =>
    rw [htype, Option.getD_some] at hplace
    exact SectionCode.algorithm_of_place_trailer _ (SectionCode.mem_catalog htype) hplace

/-- The CRC that is computed for a section that is split is the one of its contents. -/
theorem computedCrc_of_stripped (h : s.stripped = true) :
    s.computedCrc = some (Crc.software s.payload) := by
  rw [computedCrc, (of_stripped h).1, payload, if_pos h]

/-- A CRC in the entry covers the whole section. -/
theorem exists_crcs_of_entry (h : s.place = .entry) :
    ∃ e, s.entry = some e ∧ s.storedCrc = some e.sectionCrc ∧
      s.computedCrc = some (Crc.software s.data) := by
  obtain ⟨e, he⟩ := exists_entry_of_place h
  refine ⟨e, he, ?_, ?_⟩
  · rw [storedCrc, h, he]
    rfl
  · rw [computedCrc, h]

/-- A CRC at the end of a section covers everything before it. -/
theorem crcs_of_trailer (h : s.place = .trailer) :
    s.storedCrc = some (s.type.slot.get (s.data.u32At (s.data.length - trailerSize))) ∧
      s.computedCrc = some (Crc.software (s.data.take (s.data.length - trailerSize))) := by
  constructor
  · rw [storedCrc, h]
  · rw [computedCrc, h]

/-- A section has a CRC and something that it covers, or neither. -/
theorem crcs_of_place (s : Section) :
    s.place = .none ∧ s.storedCrc = none ∨
      s.place ≠ .none ∧ ∃ stored computed, s.storedCrc = some stored ∧ s.computedCrc = some computed := by
  cases hplace : s.place with
  | none => exact .inl ⟨rfl, by rw [storedCrc, hplace]⟩
  | entry =>
    obtain ⟨e, -, hcrcs⟩ := exists_crcs_of_entry hplace
    exact .inr ⟨by decide, _, _, hcrcs⟩
  | trailer => exact .inr ⟨by decide, _, _, crcs_of_trailer hplace⟩

/-! ### The check -/

/-- A section with a CRC of its own does not report on records: neither the pointer array nor a table
has one. -/
theorem selfChecked_of_place (h : s.place ≠ .none) : s.selfChecked = false := by
  rw [selfChecked]
  split
  · next hfamily =>
    have hcatalog := mem_catalog (s := s) (by rw [hfamily]; decide)
    exact absurd (place_of_type (SectionCode.of_family_pointers _ hcatalog hfamily).2) h
  · next hfamily =>
    have hcatalog := mem_catalog (s := s) (by rw [hfamily]; decide)
    exact absurd (place_of_type (SectionCode.of_family_toc _ hcatalog hfamily).2) h
  · rfl

/-- A section that does not report on its own records is checked by its CRC. -/
theorem status_of_not_selfChecked (hself : s.selfChecked = false) :
    s.status = match s.storedCrc, s.computedCrc with
      | some stored, some computed => if s.encrypted then .skipped else .check stored computed
      | _, _ => .notApplicable := by
  rw [selfChecked] at hself
  rw [status]
  split
  · next hfamily =>
    rw [hfamily] at hself
    cases hself
  · next hfamily =>
    rw [hfamily] at hself
    cases hself
  · rfl

/-- **A section with a CRC of its own is checked** by comparing the CRC that is stored with the one that
is computed, unless it is encrypted. -/
theorem status_of_crc (hself : s.selfChecked = false) {stored computed : UInt16}
    (hstored : s.storedCrc = some stored) (hcomputed : s.computedCrc = some computed) :
    s.status = if s.encrypted then .skipped else .check stored computed := by
  rw [status_of_not_selfChecked hself, hstored, hcomputed]

/-- The outcome for a section with a CRC of its own that is not encrypted. -/
theorem status_of_plain {stored computed : UInt16} (hplace : s.place ≠ .none)
    (hstored : s.storedCrc = some stored) (hcomputed : s.computedCrc = some computed)
    (hplain : s.encrypted = false) : s.status = .check stored computed := by
  rw [status_of_crc (selfChecked_of_place hplace) hstored hcomputed, hplain]
  rfl

/-- **A section that is split is checked** by comparing the CRC in the dword split off with the one of the
contents. -/
theorem status_of_stripped (h : s.stripped = true) {dword : UInt32}
    (hdword : s.trailer = some dword) :
    s.status = .check (s.type.slot.get dword) (Crc.software s.payload) := by
  have hplace := (of_stripped h).1
  have hstored : s.storedCrc = some (s.type.slot.get dword) := by
    rw [trailer, if_pos h, Option.some.injEq] at hdword
    rw [storedCrc, hplace, hdword]
  exact status_of_plain (by rw [hplace]; decide) hstored (computedCrc_of_stripped h)
    (encrypted_of_stripped h)

/-! ### Contents -/

/-- What is projected was read from the contents, and gives them back if it says everything. -/
theorem of_project [Algorithms] {p : Projection} (h : s.project = .ok p) :
    Projection.decode s.type.family s.payload = .ok p ∧
      (p.keepsBytes = false → p.encode = .ok s.payload) := by
  rw [project] at h
  split at h
  · cases h
  obtain ⟨q, hdecode, h⟩ := exists_of_bind_eq_ok h
  split at h
  · next hkeeps =>
    cases h
    exact ⟨hdecode, fun hnot => absurd hkeeps (by rw [hnot]; decide)⟩
  · obtain ⟨bs, hencode, h⟩ := exists_of_bind_eq_ok h
    split at h
    · next heq =>
      cases h
      exact ⟨hdecode, fun _ => heq ▸ eq_ok_of_mapError_eq_ok hencode⟩
    · cases h

/-- **What is read is what is projected**, if it stands for the contents or these are kept beside it. -/
theorem project_of_decode [Algorithms] (hfits : s.misfits = false) {p : Projection}
    (h : Projection.decode s.type.family s.payload = .ok p)
    (hexact : p.keepsBytes = false → p.encode = .ok s.payload) : s.project = .ok p := by
  rw [project, hfits, h]
  show (if p.keepsBytes then pure p else _) = Except.ok p
  split
  · rfl
  next hkeeps =>
  rw [hexact (Bool.eq_false_iff.2 hkeeps)]
  exact if_pos rfl

end Section

end FlashImage
