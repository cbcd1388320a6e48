import FlashImage.Proofs.Json.RoundTrip
import FlashImage.Proofs.Text.Field

/-!
# The three forms of a character field

A character field has three forms: the bytes of the field, the value that is read from them, and the JSON
string that the value is written as. Going from the bytes to the others and back loses nothing
(`FieldText.Faithful`). The other way there is a choice, as a JSON file may have been edited: text may be too
long for its field or not printable, and bytes may be given as bytes although they are plain text. What such a
value is written as is a field all the same, and reading that one settles on a value that is written as the
same bytes (`FieldText.Settles`).

Both kinds of values share the JSON strings. The values that can be read from one are the canonical ones
(`FieldText.exists_isReadAs_iff`), and among these no two have the same string
(`FieldText.pretty_injective`). What is read from a field is one of them, so its text is written like no bytes.
-/

namespace FlashImage.FieldText

/-- **A JSON text is read as a value.** -/
def IsReadAs (source : Bytes) (t : FieldText) : Prop := (Json.parse? source).bind ofJson? = some t

/-- **A field survives both of its other forms.** -/
structure Faithful (field : Bytes) : Prop where
  json_back : IsReadAs (ofField field).toJson.pretty (ofField field)
  field_back : ∀ name, (ofField field).toField name field.length = .ok field
  /-- Text that the field is read as has the JSON text of no bytes. -/
  text_apart : ∀ s, ofField field = text s → ∀ bs, (text s).toJson.pretty ≠ (raw bs).toJson.pretty

/-- **A value settles**: where it does not fit it is refused, and where it does its field is read as a value
for the same field. -/
structure Settles (t : FieldText) : Prop where
  refused : ∀ name width, (∃ e, t.toField name width = .error e) ↔ width < t.bytes.length
  settled : ∀ name width field, t.toField name width = .ok field →
    ∀ name', (ofField field).toField name' width = .ok field

/-! ### Values and their JSON text -/

/-- **A canonical value is read back** from its JSON text. -/
theorem isReadAs_pretty {t : FieldText} (h : t.Canonical) : IsReadAs t.toJson.pretty t := by
  have hparse : Json.parse? t.toJson.pretty = some t.toJson :=
    Json.parse?_pretty (Json.isDecimal_text t.display)
  rw [IsReadAs, hparse, Option.bind_some, ofJson?_toJson h]

/-- **What is read is canonical**, since a string with the marker is read as bytes or not at all. -/
theorem IsReadAs.canonical {source : Bytes} {t : FieldText} (h : IsReadAs source t) : t.Canonical := by
  obtain ⟨j, -, hj⟩ := Option.bind_eq_some_iff.1 h
  obtain ⟨s, -, hs⟩ := Option.bind_eq_some_iff.1 hj
  unfold ofDisplay? at hs
  split at hs
  · obtain ⟨bs, -, rfl⟩ := Option.map_eq_some_iff.1 hs
    trivial
  · next hmarker =>
    obtain rfl := Option.some.inj hs
    rwa [List.isPrefixOf_iff_prefix] at hmarker

/-- The values that a JSON text can stand for are the canonical ones. -/
theorem exists_isReadAs_iff {t : FieldText} : (∃ source, IsReadAs source t) ↔ t.Canonical := by
  constructor
  · rintro ⟨source, h⟩
    exact h.canonical
  · intro h
    exact ⟨t.toJson.pretty, isReadAs_pretty h⟩

/-- **Canonical values do not share a JSON text.** -/
theorem pretty_injective {t u : FieldText} (ht : t.Canonical) (hu : u.Canonical)
    (heq : t.toJson.pretty = u.toJson.pretty) : t = u := by
  -- A JSON text is read as one value only.
  have hread : IsReadAs t.toJson.pretty t := isReadAs_pretty ht
  rw [heq] at hread
  exact Option.some.inj (hread.symm.trans (isReadAs_pretty hu))

/-! ### Values and their field -/

/-- A value is refused for its length, and for nothing else. -/
theorem toField_eq_error_iff {t : FieldText} {name : String} {width : Nat} :
    (∃ e, t.toField name width = .error e) ↔ width < t.bytes.length := by
  unfold toField
  split
  · next hlong => simp [hlong]
  · next hfit => simp [hfit]

/-! ### All forms together -/

theorem faithful (field : Bytes) : Faithful field where
  json_back := isReadAs_pretty (canonical_ofField field)
  field_back name := toField_ofField field name rfl
  text_apart s hs bs heq := by
    have hcanonical : (text s).Canonical := hs ▸ canonical_ofField field
    cases pretty_injective hcanonical (u := raw bs) trivial heq

-- Text that begins with the marker stays bytes, at the full width of its field.
example : (ofField (Bytes.ofString "hex:00" ++ [0, 0])).display = "hex:6865783a30300000" := by decide +kernel

theorem settles (t : FieldText) : Settles t where
  refused _ _ := toField_eq_error_iff
  settled name width field h name' := by
    -- What was written is as wide as the field, and every field of that width is written back.
    have hwidth : field.length = width := length_of_toField h
    exact toField_ofField field name' hwidth

/-- **Character fields are lossless and canonical**: every field survives its other forms, and every value
that a JSON text stands for settles. -/
theorem lossless_canonical :
    (∀ field : Bytes, Faithful field) ∧
    (∀ (source : Bytes) (t : FieldText), IsReadAs source t → Settles t) := by
  constructor
  · exact faithful
  · intro source t _
    exact settles t

end FlashImage.FieldText
