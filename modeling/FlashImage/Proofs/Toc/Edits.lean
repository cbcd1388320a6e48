import FlashImage.Proofs.Checksum.Coverage
import FlashImage.Proofs.Toc.Views
import Mathlib.Data.List.Pairwise

/-!
# Editing records

A header or an entry of a table is edited by setting one of its fields, or by sealing it, which brings its
CRC up to date. However many edits there are, and in whatever order, a record behaves like a row of
variables, one for each field: a field holds what it was last set to (`RecordKind.get_run`), and what is
not in a field is never touched (`RecordKind.bit_run`).

Headers and entries differ in their fields and in how their CRC is computed, and in nothing that matters
here. So a run of edits is defined once for every kind of record (`RecordKind`), and what has to be known of
a kind on its own is put together in `RecordKind.Lawful`: its fields do not overlap, an edit changes the
field it is about, and sealing leaves a valid record. An edit then does one of three things
(`RecordKind.perform_cases`), of which each of the two statements about runs is a short induction.

That sealing leaves a valid record, and leaves it alone the second time, takes that the CRC is computed
from bits it is not stored in. Both kinds compute it from the first 30 bytes of the record, and the CRC
stands behind these (`TocRecord.take_encode_replace_crc`).
-/

namespace FlashImage

/-! ### Runs of edits -/

/-- **An edit of a record** with the given fields: a value for one of them, or a CRC that fits the rest. -/
inductive RecordEdit (fields : List BitField) where
  | set (f : BitField) (declared : f ∈ fields) (value : UInt32)
  | reseal

/-- **A kind of record** that carries its own CRC: its fields, the field of the CRC among them, and what
can be done with a record of the kind. -/
structure RecordKind (α : Type) where
  fields : List BitField
  crcField : BitField
  record : α → TocRecord
  set : α → BitField → UInt32 → Except AccessError α
  sealed : α → α
  status : α → CrcStatus

/-- Headers of tables. -/
def TocHeader.recordKind : RecordKind TocHeader where
  fields := fields
  crcField := headerCrcField
  record := record
  set := set
  sealed := sealed
  status := status

/-- Entries of tables. -/
def TocEntry.recordKind : RecordKind TocEntry where
  fields := fields
  crcField := entryCrcField
  record := record
  set := set
  sealed := sealed
  status := status

/-- An edit together with its outcome. -/
abbrev EditOutcome (fields : List BitField) := RecordEdit fields × Except AccessError Unit

/-- The value that a field was set to by an edit, if it is about that field and was not refused. -/
def EditOutcome.given? {fields : List BitField} (f : BitField) : EditOutcome fields → Option UInt32
  | (.set g _ value, .ok _) => if g = f then some value else none
  | _ => none

/-- **The value of the last successful set** of a field, if there is one. -/
def lastSet? {fields : List BitField} (f : BitField) (log : List (EditOutcome fields)) : Option UInt32 :=
  log.reverse.findSome? (EditOutcome.given? f)

/-- A set that was done first is the last one only if none of the others is about the field. -/
theorem lastSet?_cons {fields : List BitField} (f : BitField) (first : EditOutcome fields)
    (log : List (EditOutcome fields)) :
    lastSet? f (first :: log) = (lastSet? f log).or (first.given? f) := by
  rw [lastSet?, List.reverse_cons, List.findSome?_append, List.findSome?_singleton]
  rfl

namespace RecordKind

variable {α : Type} (K : RecordKind α)

/-- **One edit**: the record it leaves behind, and its outcome. A value that is refused leaves the record
that was there. -/
def perform (a : α) : RecordEdit K.fields → α × Except AccessError Unit
  | .set f _ value =>
    match K.set a f value with
    | .ok b => (b, .ok ())
    | .error e => (a, .error e)
  | .reseal => (K.sealed a, .ok ())

/-- **A run of edits**: the record it leaves behind, and each edit with its outcome. -/
def run (a : α) : List (RecordEdit K.fields) → α × List (EditOutcome K.fields)
  | [] => (a, [])
  | edit :: edits =>
    let (b, outcome) := K.perform a edit
    let (c, log) := run b edits
    (c, (edit, outcome) :: log)

theorem run_cons (a : α) (edit : RecordEdit K.fields) (edits : List (RecordEdit K.fields)) :
    K.run a (edit :: edits)
      = ((K.run (K.perform a edit).1 edits).1,
        (edit, (K.perform a edit).2) :: (K.run (K.perform a edit).1 edits).2) := rfl

/-! ### What is asked of a kind of record -/

/-- **A kind of record whose fields are set and sealed as they should be**, each edit taken on its own. -/
structure Lawful : Prop where
  /-- All fields lie in the eight dwords. -/
  dword_lt : ∀ f ∈ K.fields, f.dword < 8
  /-- No two fields overlap. -/
  disjoint : K.fields.Pairwise BitField.Disjoint
  crc_mem : K.crcField ∈ K.fields
  /-- Setting a field sets it in the dwords. -/
  record_set : ∀ a f value, (K.set a f value).map K.record = (K.record a).set f value
  /-- Sealing replaces the CRC. -/
  record_sealed : ∀ a, ∃ crc, K.record (K.sealed a) = (K.record a).replace K.crcField crc
  status_sealed : ∀ a, K.status (K.sealed a) = .valid
  sealed_sealed : ∀ a, K.sealed (K.sealed a) = K.sealed a

variable {K}

/-- Two declared fields are the same or do not overlap. -/
theorem Lawful.disjoint_of_ne (hK : K.Lawful) {f g : BitField} (hf : f ∈ K.fields) (hg : g ∈ K.fields)
    (hne : f ≠ g) : f.Disjoint g :=
  have : Std.Symm BitField.Disjoint := ⟨fun _ _ h => h.symm⟩
  hK.disjoint.forall hf hg hne

/-! ### One edit -/

/-- **Setting a field**: refused, with the record as it was, exactly if the value does not fit. -/
theorem Lawful.perform_set (hK : K.Lawful) (a : α) {f : BitField} (hf : f ∈ K.fields) (value : UInt32) :
    (value ≤ f.limit ∧ ∃ b, K.perform a (.set f hf value) = (b, .ok ()) ∧
      K.record b = (K.record a).replace f value) ∨
    (¬ value ≤ f.limit ∧
      K.perform a (.set f hf value) = (a, .error (.fieldOverflow f.name value.toNat f.width))) := by
  have hset := hK.record_set a f value
  rw [TocRecord.set_eq _ (hK.dword_lt f hf)] at hset
  rw [perform]
  -- The dwords say whether the value fits, and a record of the kind is set if its dwords are.
  by_cases hfits : value ≤ f.limit
  · rw [if_pos hfits] at hset
    obtain ⟨b, hb, hrecord⟩ := exists_of_map_eq_ok hset
    exact .inl ⟨hfits, b, by rw [hb], hrecord⟩
  · rw [if_neg hfits] at hset
    refine .inr ⟨hfits, ?_⟩
    cases hrefused : K.set a f value with
    | ok b =>
      rw [hrefused] at hset
      cases hset
    | error e =>
      rw [hrefused] at hset
      cases hset
      rfl

/-- **What an edit can do.** It sets a field to a value that fits, it is refused and changes nothing, or it
replaces the CRC. -/
theorem Lawful.perform_cases (hK : K.Lawful) (a : α) (edit : RecordEdit K.fields) :
    (∃ f hf value b, edit = .set f hf value ∧ value ≤ f.limit ∧ K.perform a edit = (b, .ok ()) ∧
      K.record b = (K.record a).replace f value) ∨
    (∃ e, K.perform a edit = (a, .error e)) ∨
    (∃ crc, edit = .reseal ∧ K.perform a edit = (K.sealed a, .ok ()) ∧
      K.record (K.sealed a) = (K.record a).replace K.crcField crc) := by
  cases edit with
  | set f hf value =>
    obtain ⟨hfits, b, hb, hrecord⟩ | ⟨-, hrefused⟩ := hK.perform_set a hf value
    · exact .inl ⟨f, hf, value, b, rfl, hfits, hb, hrecord⟩
    · exact .inr (.inl ⟨_, hrefused⟩)
  | reseal =>
    obtain ⟨crc, hcrc⟩ := hK.record_sealed a
    exact .inr (.inr ⟨crc, rfl, rfl, hcrc⟩)

/-- An edit leaves the bits outside of all fields alone. -/
theorem Lawful.bit_perform (hK : K.Lawful) (a : α) (edit : RecordEdit K.fields) {i k : Nat} (hi : i < 8)
    (hk : k < 32) (houtside : Outside K.fields i k) :
    (K.record (K.perform a edit).1).bit i k = (K.record a).bit i k := by
  obtain ⟨f, hf, value, b, -, -, hb, hrecord⟩ | ⟨e, he⟩ | ⟨crc, -, hseal, hrecord⟩ :=
    hK.perform_cases a edit
  · rw [hb, hrecord, TocRecord.bit_replace _ _ _ hi hk, if_neg (houtside f hf)]
  · rw [he]
  · rw [hseal, hrecord, TocRecord.bit_replace _ _ _ hi hk, if_neg (houtside _ hK.crc_mem)]

/-- **After an edit a field has the value it was given**, or else the value it had. The field of the CRC is
left out, as sealing sets it too. -/
theorem Lawful.get_perform (hK : K.Lawful) (a : α) (edit : RecordEdit K.fields) {f : BitField}
    (hf : f ∈ K.fields) (hcrc : f ≠ K.crcField) :
    f.get (K.record (K.perform a edit).1).dwords
      = (EditOutcome.given? f (edit, (K.perform a edit).2)).getD (f.get (K.record a).dwords) := by
  have hroom : f.dword < (K.record a).dwords.length := by
    rw [TocRecord.length_dwords]
    exact hK.dword_lt f hf
  obtain ⟨g, hg, value, b, rfl, hfits, hb, hrecord⟩ | ⟨e, he⟩ | ⟨crc, rfl, hseal, hrecord⟩ :=
    hK.perform_cases a edit
  · rw [hb, EditOutcome.given?, hrecord]
    -- Either it is this field that was set, or one that has no bit in common with it.
    by_cases hsame : g = f
    · subst hsame
      rw [if_pos rfl]
      exact BitField.get_replace_self hroom hfits
    · rw [if_neg hsame]
      exact BitField.get_replace_of_disjoint (hK.disjoint_of_ne hf hg (Ne.symm hsame)) hroom value
  · -- A refused edit gives nothing, whatever it is about.
    rw [he]
    cases edit <;> rfl
  · rw [hseal, hrecord]
    exact BitField.get_replace_of_disjoint (hK.disjoint_of_ne hf hK.crc_mem hcrc) hroom crc

/-! ### Runs -/

/-- **Bits outside of all fields never change.** -/
theorem Lawful.bit_run (hK : K.Lawful) (a : α) (edits : List (RecordEdit K.fields)) {i k : Nat} (hi : i < 8)
    (hk : k < 32) (houtside : Outside K.fields i k) :
    (K.record (K.run a edits).1).bit i k = (K.record a).bit i k := by
  induction edits generalizing a with
  | nil => rfl
  | cons edit edits ih =>
    rw [run_cons]
    exact (ih _).trans (hK.bit_perform a edit hi hk houtside)

/-- **After a run a field has the value it was last set to**, or else the value it had at first. -/
theorem Lawful.get_run (hK : K.Lawful) (a : α) (edits : List (RecordEdit K.fields)) {f : BitField}
    (hf : f ∈ K.fields) (hcrc : f ≠ K.crcField) :
    f.get (K.record (K.run a edits).1).dwords
      = (lastSet? f (K.run a edits).2).getD (f.get (K.record a).dwords) := by
  induction edits generalizing a with
  | nil => rfl
  | cons edit edits ih =>
    rw [run_cons, lastSet?_cons]
    -- The first edit counts where none of the later ones does.
    calc f.get (K.record (K.run (K.perform a edit).1 edits).1).dwords
      _ = (lastSet? f (K.run (K.perform a edit).1 edits).2).getD
          (f.get (K.record (K.perform a edit).1).dwords) := ih _
      _ = (lastSet? f (K.run (K.perform a edit).1 edits).2).getD
          ((EditOutcome.given? f (edit, (K.perform a edit).2)).getD (f.get (K.record a).dwords)) := by
        rw [hK.get_perform a edit hf hcrc]
      _ = ((lastSet? f (K.run (K.perform a edit).1 edits).2).or
          (EditOutcome.given? f (edit, (K.perform a edit).2))).getD (f.get (K.record a).dwords) :=
        Option.getD_or.symm

end RecordKind

/-! ### Sealing headers and entries -/

namespace TocRecord

/-- A field that is replaced twice has its second value. -/
theorem replace_replace (r : TocRecord) (f : BitField) (value other : UInt32) :
    (r.replace f value).replace f other = r.replace f other := by
  refine eq_of_bit_eq fun i k hi hk => ?_
  rw [bit_replace _ _ _ hi hk, bit_replace _ _ _ hi hk, bit_replace _ _ _ hi hk]
  by_cases hcovers : f.Covers i k
  · rw [if_pos hcovers, if_pos hcovers]
  · rw [if_neg hcovers, if_neg hcovers, if_neg hcovers]

/-- **What the CRC of a record covers does not hold the CRC.** -/
theorem take_encode_replace_crc (r : TocRecord) (value : UInt32) :
    (r.replace TocHeader.headerCrcField value).encode.take 30 = r.encode.take 30 := by
  apply (List.append_left_inj [0, 0]).1
  -- With the CRC cleared a record is what is covered and two zeros, and clearing undoes any CRC.
  calc (r.replace TocHeader.headerCrcField value).encode.take 30 ++ [0, 0]
    _ = ((r.replace TocHeader.headerCrcField value).replace TocHeader.headerCrcField 0).encode :=
      (encode_replace_crc _).symm
    _ = (r.replace TocHeader.headerCrcField 0).encode := by rw [replace_replace]
    _ = r.encode.take 30 ++ [0, 0] := encode_replace_crc r

/-- A CRC is read back from its field. -/
theorem toUInt16_get_replace_crc (r : TocRecord) (crc : UInt16) :
    (TocHeader.headerCrcField.get (r.replace TocHeader.headerCrcField crc.toUInt32).dwords).toUInt16 = crc := by
  have hroom : TocHeader.headerCrcField.dword < r.dwords.length := by
    rw [r.length_dwords]
    decide
  have hfits : crc.toUInt32 ≤ TocHeader.headerCrcField.limit := by
    rw [BitField.le_limit_iff, UInt16.toNat_toUInt32]
    exact crc.toNat_lt
  rw [replace, BitField.get_replace_self hroom hfits, UInt16.toUInt16_toUInt32]

end TocRecord

namespace TocHeader

/-- Sealing a header does not change what its CRC should be. -/
theorem computedCrc_sealed (h : TocHeader) : h.sealed.computedCrc = h.computedCrc := by
  rw [computedCrc_eq, computedCrc_eq]
  exact congrArg Crc.software (TocRecord.take_encode_replace_crc _ _)

/-- **Headers are a lawful kind of record.** -/
theorem lawful_recordKind : recordKind.Lawful where
  dword_lt := dword_lt
  disjoint := pairwise_disjoint_fields
  crc_mem := by decide
  record_set h f value := by
    show (h.set f value).map record = h.record.set f value
    rw [set]
    cases h.record.set f value <;> rfl
  record_sealed h := ⟨_, rfl⟩
  status_sealed h := by
    show CrcStatus.check h.sealed.headerCrc h.sealed.computedCrc = .valid
    -- What is stored is the CRC from before sealing, and that is still the right one.
    have hstored : h.sealed.headerCrc = h.computedCrc := TocRecord.toUInt16_get_replace_crc _ _
    rw [computedCrc_sealed, hstored, CrcStatus.check_self]
  sealed_sealed h := by
    -- The second CRC is the same as the first, and takes its place.
    show h.sealed.sealed = h.sealed
    rw [sealed, computedCrc_sealed, sealed, TocRecord.replace_replace]

end TocHeader

namespace TocEntry

/-- Sealing an entry does not change what its CRC should be. -/
theorem computedCrc_sealed (e : TocEntry) : e.sealed.computedCrc = e.computedCrc :=
  congrArg Crc.software (TocRecord.take_encode_replace_crc _ _)

/-- **Entries are a lawful kind of record.** -/
theorem lawful_recordKind : recordKind.Lawful where
  dword_lt := dword_lt
  disjoint := pairwise_disjoint_fields
  crc_mem := by decide
  record_set e f value := by
    show (e.set f value).map record = e.record.set f value
    rw [set]
    cases e.record.set f value <;> rfl
  record_sealed e := ⟨_, rfl⟩
  status_sealed e := by
    show CrcStatus.check e.sealed.entryCrc e.sealed.computedCrc = .valid
    have hstored : e.sealed.entryCrc = e.computedCrc := TocRecord.toUInt16_get_replace_crc _ _
    rw [computedCrc_sealed, hstored, CrcStatus.check_self]
  sealed_sealed e := by
    show e.sealed.sealed = e.sealed
    rw [sealed, computedCrc_sealed, sealed, TocRecord.replace_replace]

end TocEntry

/-! ### Records as rows of variables -/

/-- **Fields that are independent of each other**, from any record on and over any run of edits. -/
structure RecordKind.IndependentFields {α : Type} (K : RecordKind α) : Prop where
  /-- Bits outside of all fields never change. -/
  outside : ∀ a edits i k, i < 8 → k < 32 → Outside K.fields i k →
    (K.record (K.run a edits).1).bit i k = (K.record a).bit i k
  /-- A value is taken exactly if it has no more bits than its field. -/
  accepted : ∀ a f (hf : f ∈ K.fields) value,
    (K.perform a (.set f hf value)).2 = .ok () ↔ value.toNat < 2 ^ f.width
  /-- A value that is not taken is refused under the name of its field, and the record stays as it was. -/
  refused : ∀ a f (hf : f ∈ K.fields) value, 2 ^ f.width ≤ value.toNat →
    K.perform a (.set f hf value) = (a, .error (.fieldOverflow f.name value.toNat f.width))
  /-- A field holds what it was last set to. The field of the CRC is not one of them, as sealing sets it. -/
  lastSet : ∀ a edits f, f ∈ K.fields → f ≠ K.crcField →
    f.get (K.record (K.run a edits).1).dwords
      = (lastSet? f (K.run a edits).2).getD (f.get (K.record a).dwords)
  /-- Sealing is never refused, and leaves a valid record. -/
  resealed : ∀ a, (K.perform a .reseal).2 = .ok () ∧ K.status (K.perform a .reseal).1 = .valid
  /-- Sealing changes no bit outside of the CRC. -/
  resealed_outside : ∀ a i k, i < 8 → k < 32 → ¬ K.crcField.Covers i k →
    (K.record (K.perform a .reseal).1).bit i k = (K.record a).bit i k
  /-- Sealing again changes nothing. -/
  resealed_twice : ∀ a, (K.perform (K.perform a .reseal).1 .reseal).1 = (K.perform a .reseal).1

/-- **The fields of a lawful kind of record are independent.** -/
theorem RecordKind.Lawful.independentFields {α : Type} {K : RecordKind α} (hK : K.Lawful) :
    K.IndependentFields where
  outside a edits _ _ := hK.bit_run a edits
  accepted a f hf value := by
    rw [← f.le_limit_iff]
    obtain ⟨hfits, b, hb, -⟩ | ⟨hmisfit, hrefused⟩ := hK.perform_set a hf value
    · rw [hb]
      exact iff_of_true rfl hfits
    · rw [hrefused]
      exact iff_of_false (fun h => nomatch h) hmisfit
  refused a f hf value hlarge := by
    have hmisfit : ¬ value ≤ f.limit := by
      rw [f.le_limit_iff]
      exact Nat.not_lt.2 hlarge
    obtain ⟨hfits, -⟩ | ⟨-, hrefused⟩ := hK.perform_set a hf value
    · exact absurd hfits hmisfit
    · exact hrefused
  lastSet a edits _ := hK.get_run a edits
  resealed a := ⟨rfl, hK.status_sealed a⟩
  resealed_outside a i k hi hk houtside := by
    obtain ⟨crc, hcrc⟩ := hK.record_sealed a
    show (K.record (K.sealed a)).bit i k = _
    rw [hcrc, TocRecord.bit_replace _ _ _ hi hk, if_neg houtside]
  resealed_twice := hK.sealed_sealed

-- A size that does not fit is refused, so the one from before sealing is still there.
example :
    let edits : List (RecordEdit TocEntry.fields) :=
      [.set TocEntry.sizeField (by decide) 5, .reseal, .set TocEntry.sizeField (by decide) (2 ^ 22)]
    TocEntry.sizeField.get (TocEntry.recordKind.run .endMarker edits).1.record.dwords = 5 := by
  decide +kernel

/-- **Editing a record.** Over any run of edits, the fields of an entry and of a header behave like
variables that know nothing of each other, and sealing like an assignment to the CRC alone. -/
theorem TocRecord.edits_independent :
    TocEntry.recordKind.IndependentFields ∧ TocHeader.recordKind.IndependentFields :=
  ⟨TocEntry.lawful_recordKind.independentFields, TocHeader.lawful_recordKind.independentFields⟩

end FlashImage
