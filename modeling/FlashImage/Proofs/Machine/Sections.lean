import FlashImage.Machine.Sections
import FlashImage.Proofs.Machine.Encoders
import FlashImage.Proofs.Metadata.OfImage
import FlashImage.Proofs.Section.Status

/-!
# Sections without fault

When a section is made, its CRC is verified and its contents are projected; from then on its contents,
its CRCs and its end can be asked for. The last dword of a section is taken off only if the place of the
CRC says so, and the place says so only for sections that have a dword. The sum that is the end of a
section is in range because the section lies in the image.
-/

namespace FlashImage.Machine

variable {s : Section}

/-! ### Parts of a section -/

theorem last_eq (h : s.last < 2 ^ 64) : last s = .ok s.last := add_eq h

theorem payload_eq : payload s = .ok s.payload := by
  rw [payload, Section.payload]
  split
  · next hstripped =>
    have hlength := (Section.of_stripped hstripped).2.2
    rw [sub_eq hlength, ok_bind, sliceTo_eq (Nat.sub_le _ _)]
  · rfl

/-- The last dword of a section that has one is read without fault. -/
theorem readU32_trailer (hd : s.data.length < 2 ^ 63) (h : Section.trailerSize ≤ s.data.length) :
    (readU32 s.data (s.data.length - Section.trailerSize)).run
      = .ok (.ok (s.data.u32At (s.data.length - Section.trailerSize))) := by
  have hin : s.data.length - Section.trailerSize + 4 ≤ s.data.length := by
    unfold Section.trailerSize at h ⊢
    omega
  rw [readU32_ok hd hin]
  rfl

theorem trailer_eq (hd : s.data.length < 2 ^ 63) : trailer s = .ok s.trailer := by
  rw [trailer, Section.trailer]
  split
  · next hstripped =>
    have hlength := (Section.of_stripped hstripped).2.2
    rw [sub_eq hlength, ok_bind, readU32_trailer hd hlength]
    rfl
  · rfl

theorem storedCrc_eq (hd : s.data.length < 2 ^ 63) : storedCrc s = .ok s.storedCrc := by
  rw [storedCrc, Section.storedCrc]
  cases hplace : s.place with
  | none => rfl
  | entry =>
    cases s.entry with
    | none => rfl
    | some e =>
      simp only [field_eq, ok_bind]
      rfl
  | trailer =>
    have hlength := (Section.place_eq_trailer_iff.1 hplace).2.2
    simp only [trailerStart?, if_pos hlength, readU32_trailer hd hlength, ok_bind]
    rfl

theorem computedCrc_eq : computedCrc s = .ok s.computedCrc := by
  rw [computedCrc, Section.computedCrc]
  cases hplace : s.place with
  | none => rfl
  | entry =>
    simp only [software_eq, ok_bind]
    rfl
  | trailer =>
    have hlength := (Section.place_eq_trailer_iff.1 hplace).2.2
    simp only [trailerStart?, if_pos hlength, sliceTo_eq (Nat.sub_le _ _), software_eq, ok_bind]
    rfl

/-! ### Making a section -/

/-- A section with what is said about it. -/
def Loaded.of [Algorithms] (s : Section) : Loaded := ⟨s, s.place, s.status, s.projection⟩

@[simp] theorem anyHas_eq (f : BitField) (entry : Option TocEntry) :
    anyHas f entry = .ok (entry.any (·.has f)) := by
  cases entry with
  | none => rfl
  | some e => exact entryHas_eq f e

@[simp] theorem place_eq : place s = .ok s.place := by
  rw [place, anyHas_eq]
  rfl

theorem verify_eq (hd : s.data.length < 2 ^ 63) : verify s = .ok s.status := by
  rw [verify, Section.status]
  cases s.type.family with
  | pointers =>
    simp only
    cases Pointers.decode s.data with
    | error e => rfl
    | ok ps => exact pointersStatus_eq ps
  | toc =>
    simp only [decodeToc_eq]
    cases Toc.decode s.data with
    | error e => rfl
    | ok t => exact tocStatus_eq t
  | _ =>
    simp only [storedCrc_eq hd, computedCrc_eq, ok_bind]
    -- A section has no CRC at all, or has a stored one and a computed one.
    obtain ⟨hplace, hstored⟩ | ⟨hplace, stored, computed, hstored, hcomputed⟩ := Section.crcs_of_place s
    · rw [if_pos hplace, hstored]
      rfl
    · rw [if_neg hplace, hstored, hcomputed]
      split <;> rfl

theorem recordSize_type (s : Section) : recordSize s.type.family < 2 ^ 64 := by
  by_cases hfamily : s.type.family = .generic
  · rw [hfamily]
    decide
  · have hall : ∀ r ∈ catalog, recordSize r.2.family < 2 ^ 64 := by decide
    exact hall _ (Section.mem_catalog hfamily)

theorem project_eq [Algorithms] (hd : s.data.length < 2 ^ 63) : project s = settled s.project := by
  have hlength : s.payload.length < 2 ^ 63 := Nat.lt_of_le_of_lt s.length_payload_le hd
  rw [project, Section.project]
  split
  · rfl
  rw [payload_eq, lift_ok, settled_ok_bind, decode_eq hlength (recordSize_type s)]
  refine settled_bind fun p hp => ?_
  split
  · rfl
  rw [encode_eq (bounded_of_decode hlength hp)]
  cases p.encode with
  | error e => rfl
  | ok bs =>
    show (if bs = s.payload then _ else _) = settled (if bs = s.payload then _ else _)
    split <;> rfl

theorem load_eq [Algorithms] (hd : s.data.length < 2 ^ 63) : load s = .ok (.of s, s.findings) := by
  rw [load, place_eq, ok_bind, verify_eq hd, ok_bind, project_eq hd, Loaded.of, Section.projection,
    Section.findings]
  by_cases hencrypted : s.encrypted = true
  · simp only [if_pos hencrypted, List.append_nil]
    rfl
  · simp only [if_neg hencrypted]
    cases s.project with
    | ok p =>
      rw [List.append_nil]
      rfl
    | error e => rfl

end FlashImage.Machine
