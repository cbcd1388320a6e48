import FlashImage.Json.Decode
import FlashImage.Bytes.Access

/-!
# Versions

The same eight bytes hold a version wherever one is stored: three numbers that make it up and a
reserved word that is only carried along.
-/

namespace FlashImage

/-- **A version**: major, minor and subminor number, and a reserved word. -/
structure Version where
  major : UInt16
  minor : UInt16
  subminor : UInt16
  reserved : UInt16
  deriving DecidableEq

namespace Version

/-- The number of bytes of a stored version. -/
def size : Nat := 8

/-- The stored form of a version. -/
def encode (v : Version) : Bytes :=
  Bytes.u16 v.major ++ Bytes.u16 v.minor ++ Bytes.u16 v.subminor ++ Bytes.u16 v.reserved

/-- The version stored at an offset. -/
def decodeAt (bs : Bytes) (offset : Nat) : Version :=
  ⟨bs.u16At offset, bs.u16At (offset + 2), bs.u16At (offset + 4), bs.u16At (offset + 6)⟩

@[simp] theorem length_encode (v : Version) : v.encode.length = size := by
  simp [encode, size]

/-- Versions in a row. -/
def encodeAll (vs : List Version) : Bytes := vs.flatMap encode

/-- `count` versions in a row, from an offset on. -/
def decodeAll (bs : Bytes) (offset count : Nat) : List Version :=
  (List.range count).map fun i => decodeAt bs (offset + i * size)

/-- The version stored at an offset, if the buffer holds all of it; otherwise the refusal names the
first of its words that is missing. -/
def read (bs : Bytes) (offset : Nat) : Except AccessError Version := do
  return ⟨← bs.readU16 offset, ← bs.readU16 (offset + 2), ← bs.readU16 (offset + 4),
    ← bs.readU16 (offset + 6)⟩

/-- Write a version word by word. The buffer comes back with the words that fit, together with the
refusal of the first one that does not. -/
def write (v : Version) (bs : Bytes) (offset : Nat) : Bytes × Option AccessError :=
  [(offset, v.major), (offset + 2, v.minor), (offset + 4, v.subminor), (offset + 6, v.reserved)].foldl
    (fun
      | (bs, some e), _ => (bs, some e)
      | (bs, none), (offset, word) =>
        match bs.writeU16 offset word with
        | .ok bs => (bs, none)
        | .error e => (bs, some e))
    (bs, none)

/-- A version as text. -/
def text (v : Version) : String :=
  s!"{Text.decimal v.major.toNat}.{Text.decimal v.minor.toNat}.{Text.decimalPad 4 v.subminor.toNat}"

/-- Versions as one line of text. -/
def textAll (vs : List Version) : String := ", ".intercalate (vs.map text)

def toJson (v : Version) : Json :=
  .record [("major", .nat v.major.toNat), ("minor", .nat v.minor.toNat),
    ("subminor", .nat v.subminor.toNat), ("reserved", .nat v.reserved.toNat)]

def ofJson? (j : Json) : Option Version := do
  let [major, minor, subminor, reserved] ← j.fields? ["major", "minor", "subminor", "reserved"]
    | none
  return ⟨← Json.given? Json.asU16? major, ← Json.given? Json.asU16? minor,
    ← Json.given? Json.asU16? subminor, ← Json.given? Json.asU16? reserved⟩

end Version

end FlashImage
