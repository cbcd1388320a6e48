import FlashImage.Bytes.Access
import FlashImage.Json.Decode

/-!
# Contents without a structure of their own

For orientation, the first few dwords are shown. The product data of a device begins with a tagged
string that identifies it, and that is shown as well.
-/

namespace FlashImage

/-- **Contents without a structure of their own.** -/
structure Blob where
  /-- The dwords at the front. -/
  header : List UInt32
  length : Nat
  /-- The identifier in front of product data. -/
  vpdId : Option String
  data : Bytes
  deriving DecidableEq

namespace Blob

/-- The number of dwords that are shown. -/
def headerDwords : Nat := 4

/-- The tag of an identifier. -/
def idTag : UInt8 := 0x82

/-- **The identifier in front of product data**: a tag, the length with its low byte first, and as many
bytes of text. -/
def readVpdId? : Bytes → Option String
  | tag :: low :: high :: rest =>
    let length := high.toNat * 256 + low.toNat
    if tag = idTag && length ≤ rest.length then
      some (Bytes.toStringLossy (rest.take length))
    else none
  | _ => none

/-- The contents of a section; product data has an identifier. -/
def decode (productData : Bool) (d : Bytes) : Blob := {
  header := Bytes.toDwords (d.take (headerDwords * 4))
  length := d.length
  vpdId := if productData then readVpdId? d else none
  data := d }

/-- An identifier that is not there is left out; the data itself is not part of the JSON form. -/
def toJson (b : Blob) : Json :=
  .record ([("header", .list (fun d : UInt32 => .nat d.toNat) b.header), ("len", .nat b.length)]
    ++ (b.vpdId.map fun id => ("vpd_id", .text id)).toList)

/-- Contents read from JSON are without data. -/
def ofJson? (j : Json) : Option Blob := do
  let [header, length, vpdId] ← j.fieldsFrom? 2 ["header", "len", "vpd_id"] | none
  return ⟨← Json.given? (Json.asList? Json.asU32?) header, ← Json.given? Json.asSize? length,
    ← Json.optional? Json.asText? vpdId, []⟩

end Blob

end FlashImage
