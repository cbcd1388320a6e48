import FlashImage.Toc.Kind
import FlashImage.Bytes.Access

/-!
# Why a projection is refused

A section's contents are projected only if they have the length and the marks that their kind
requires, and only if the projection gives the very same bytes back.
-/

namespace FlashImage

/-! ### Access errors as JSON -/

namespace AccessError

def toJson : AccessError → Json
  | shortBuffer offset len size =>
    .variant "ShortBuffer" (.record [("offset", .nat offset), ("len", .nat len), ("size", .nat size)])
  | fieldOverflow field value bits =>
    .variant "FieldOverflow"
      (.record [("field", .text field), ("value", .nat value), ("bits", .nat bits)])
  | rawPayload => .text "RawPayload"

def ofJson? (j : Json) : Option AccessError := do
  match ← j.asVariant? with
  | ("ShortBuffer", some payload) =>
    let [offset, len, size] ← payload.fields? ["offset", "len", "size"] | none
    return shortBuffer (← Json.given? Json.asSize? offset) (← Json.given? Json.asSize? len)
      (← Json.given? Json.asSize? size)
  | ("FieldOverflow", some payload) =>
    let [field, value, bits] ← payload.fields? ["field", "value", "bits"] | none
    return fieldOverflow (← Json.given? Json.asText? field) (← Json.given? Json.asSize? value)
      (← Json.given? (Json.asNat? UInt32.size) bits)
  | ("RawPayload", payload) => if Json.isBare payload then some rawPayload else none
  | _ => none

end AccessError

/-! ### Refusals -/

/-- **Why the contents of a section are kept raw.** -/
inductive DecodeError where
  | tooShort (need got : Nat)
  | badLength (len : Nat)
  | badMagic (expected found : UInt32)
  | inflate (reason : String)
  | access (e : AccessError)
  | toc (e : TocError)
  /-- The projection does not give the same bytes back. -/
  | notBitExact
  deriving DecidableEq

namespace DecodeError

/-- The wording of a refusal. -/
def message : DecodeError → String
  | tooShort need got => s!"need {Text.decimal need} bytes, got {Text.decimal got}"
  | badLength len => s!"unexpected length {Text.decimal len}"
  | badMagic expected found =>
    s!"expected magic {Text.hex 8 expected.toNat}, found {Text.hex 8 found.toNat}"
  | inflate reason => s!"decompression failed: {reason}"
  | access e => e.message
  | toc e => e.message
  | notBitExact => "re-encoding does not reproduce the payload"

def toJson : DecodeError → Json
  | tooShort need got => .variant "TooShort" (.record [("need", .nat need), ("got", .nat got)])
  | badLength len => .variant "BadLength" (.record [("len", .nat len)])
  | badMagic expected found =>
    .variant "BadMagic" (.record [("expected", .nat expected.toNat), ("found", .nat found.toNat)])
  | inflate reason => .variant "Inflate" (.text reason)
  | access e => .variant "Codec" e.toJson
  | toc e => .variant "Toc" e.toJson
  | notBitExact => .text "NotBitExact"

def ofJson? (j : Json) : Option DecodeError := do
  match ← j.asVariant? with
  | ("TooShort", some payload) =>
    let [need, got] ← payload.fields? ["need", "got"] | none
    return tooShort (← Json.given? Json.asSize? need) (← Json.given? Json.asSize? got)
  | ("BadLength", some payload) =>
    let [len] ← payload.fields? ["len"] | none
    return badLength (← Json.given? Json.asSize? len)
  | ("BadMagic", some payload) =>
    let [expected, found] ← payload.fields? ["expected", "found"] | none
    return badMagic (← Json.given? Json.asU32? expected) (← Json.given? Json.asU32? found)
  | ("Inflate", some payload) => inflate <$> payload.asText?
  | ("Codec", some payload) => access <$> AccessError.ofJson? payload
  | ("Toc", some payload) => toc <$> TocError.ofJson? payload
  | ("NotBitExact", payload) => if Json.isBare payload then some notBitExact else none
  | _ => none

end DecodeError

/-- Refuse contents of fewer than `n` bytes. -/
def needBytes (bs : Bytes) (n : Nat) : Except DecodeError Unit :=
  if n ≤ bs.length then .ok () else .error (.tooShort n bs.length)

end FlashImage
