import FlashImage.Bytes.Access
import FlashImage.Checksum.Rule

/-!
# Hardware pointers

Right behind the anchor sits an array of sixteen pointers, each guarded by a hardware CRC of its own.
What a pointer points at depends on its place in the array and on the format of the image; addresses
are in bytes, relative to the anchor. A pointer whose value is all ones is absent.

## Parts

* `Format` and `Role` — which pointer leads to what;
* `Pointer` — one record;
* `Pointers` — the array;
* `PointerRow` — one line of the array as it is listed.
-/

namespace FlashImage

/-! ### Formats and roles -/

/-- **What a pointer leads to.** -/
inductive Role where
  | bootRecord
  | boot2
  | itoc
  | toolsArea
  | dtoc
  | hashesTable
  deriving DecidableEq

namespace Role

/-- The name of a role. -/
def name : Role → String
  | bootRecord => "boot_record"
  | boot2 => "boot2"
  | itoc => "itoc"
  | toolsArea => "tools_area"
  | dtoc => "dtoc"
  | hashesTable => "hashes_table"

def all : List Role := [bootRecord, boot2, itoc, toolsArea, dtoc, hashesTable]

def toJson (r : Role) : Json := .text r.name

def ofJson? (j : Json) : Option Role := j.asWord? all name

end Role

/-- **The format of an image.** -/
inductive Format where
  | fs4
  | fs5
  deriving DecidableEq

namespace Format

/-- The name of a format. -/
def name : Format → String
  | fs4 => "FS4"
  | fs5 => "FS5"

def all : List Format := [fs4, fs5]

def toJson (f : Format) : Json := .text f.name

def ofJson? (j : Json) : Option Format := j.asWord? all name

/-- The format that a format byte names. -/
def ofByte? (b : UInt8) : Option Format :=
  if b = 0 then some fs4 else if b = 1 then some fs5 else none

/-- **The role of the pointer at a place** in the array. -/
def role? (format : Format) (index : Nat) : Option Role :=
  match format, index with
  | _, 0 => some .bootRecord
  | _, 1 => some .boot2
  | _, 2 => some .itoc
  | _, 3 => some .toolsArea
  | fs5, 10 => some .dtoc
  | _, 15 => some .hashesTable
  | _, _ => none

/-- **The place of the pointer with a role**, if the format has one. -/
def indexOf? (format : Format) (role : Role) : Option Nat :=
  (List.range 16).find? fun i => format.role? i = some role

end Format

/-! ### One pointer -/

/-- **A pointer record**, as stored. -/
structure Pointer where
  value : UInt32
  reserved : UInt16
  crc : UInt16
  deriving DecidableEq

namespace Pointer

/-- The number of bytes of a stored pointer. -/
def size : Nat := 8

/-- The value of an absent pointer. -/
def absentValue : UInt32 := 0xffffffff

/-- The part of a stored pointer that its CRC covers. -/
def covered (p : Pointer) : Bytes := Bytes.u32 p.value ++ Bytes.u16 p.reserved

/-- The CRC that a pointer should carry. -/
def computedCrc (p : Pointer) : UInt16 := Crc.hardware p.covered

/-- The stored form of a pointer. -/
def encode (p : Pointer) : Bytes := p.covered ++ Bytes.u16 p.crc

/-- The pointer stored at an offset. -/
def decodeAt (bs : Bytes) (offset : Nat) : Pointer :=
  ⟨bs.u32At offset, bs.u16At (offset + 4), bs.u16At (offset + 6)⟩

@[simp] theorem length_encode (p : Pointer) : p.encode.length = size := by
  simp [encode, covered, size]

/-- A pointer with the right CRC. -/
def sealed (value : UInt32) : Pointer :=
  ⟨value, 0, computedCrc ⟨value, 0, 0⟩⟩

/-- A pointer that leads nowhere: erased flash. -/
def absent : Pointer := ⟨absentValue, 0xffff, 0xffff⟩

/-- Whether a pointer leads nowhere. -/
def isAbsent (p : Pointer) : Bool := p.value = absentValue

/-- The outcome of checking a pointer; an absent one carries no CRC. -/
def status (p : Pointer) : CrcStatus :=
  if p.isAbsent then .notApplicable else .check p.crc p.computedCrc

/-- A pointer as text. -/
def text (p : Pointer) : String :=
  if p.isAbsent then "--------"
  else s!"{Text.hex 8 p.value.toNat}  crc {Text.hex 4 p.crc.toNat} {p.status.message}"

def toJson (p : Pointer) : Json :=
  .record [("value", .nat p.value.toNat), ("reserved", .nat p.reserved.toNat),
    ("crc", .nat p.crc.toNat)]

def ofJson? (j : Json) : Option Pointer := do
  let [value, reserved, crc] ← j.fields? ["value", "reserved", "crc"] | none
  return ⟨← Json.given? Json.asU32? value, ← Json.given? Json.asU16? reserved,
    ← Json.given? Json.asU16? crc⟩

end Pointer

/-! ### The array -/

/-- **The pointer array.** -/
structure Pointers where
  records : List Pointer
  deriving DecidableEq

/-- One line of the array as it is listed. -/
structure PointerRow where
  index : Nat
  role : Option Role
  value : UInt32
  crc : UInt16
  valid : Bool
  deriving DecidableEq

namespace Pointers

/-- The offset of the array from the anchor. -/
def offset : Nat := 0x18

/-- The number of pointers in an image. -/
def count : Nat := 16

/-- The number of bytes of the array in an image. -/
def size : Nat := count * Pointer.size

/-- **Reading the array** at the front of a byte string. -/
def decode (bs : Bytes) : Except AccessError Pointers :=
  if size ≤ bs.length then
    .ok ⟨(List.range count).map fun i => Pointer.decodeAt bs (i * Pointer.size)⟩
  else .error (.shortBuffer 0 size bs.length)

/-- The stored form of the array. -/
def encode (ps : Pointers) : Bytes := ps.records.flatMap Pointer.encode

/-- **The address a role leads to**, unless its pointer is absent. -/
def address? (ps : Pointers) (format : Format) (role : Role) : Option Nat := do
  let p ← ps.records[← format.indexOf? role]?
  if p.isAbsent then none else some p.value.toNat

/-- **The pointers that fail their check**, by place, with the outcome. -/
def badRecords (ps : Pointers) : List (Nat × CrcStatus) :=
  (ps.records.zipIdx.map fun (p, i) => (i, p.status)).filter (·.2.isInvalid)

/-- The first failure in the array, if there is one. -/
def status (ps : Pointers) : CrcStatus :=
  match ps.badRecords with
  | [] => .valid
  | (_, status) :: _ => status

/-- The array as it is listed. -/
def rows (ps : Pointers) (format : Format) : List PointerRow :=
  ps.records.zipIdx.map fun (p, i) => ⟨i, format.role? i, p.value, p.crc, !p.status.isInvalid⟩

def toJson (ps : Pointers) : Json := .record [("records", .list Pointer.toJson ps.records)]

def ofJson? (j : Json) : Option Pointers := do
  let [records] ← j.fields? ["records"] | none
  return ⟨← Json.given? (Json.asList? Pointer.ofJson?) records⟩

end Pointers

namespace PointerRow

def toJson (r : PointerRow) : Json :=
  .record [("index", .nat r.index), ("role", .option Role.toJson r.role),
    ("value", .nat r.value.toNat), ("crc", .nat r.crc.toNat), ("valid", .bool r.valid)]

def ofJson? (j : Json) : Option PointerRow := do
  let [index, role, value, crc, valid] ← j.fields? ["index", "role", "value", "crc", "valid"] | none
  return ⟨← Json.given? Json.asSize? index, ← Json.optional? Role.ofJson? role,
    ← Json.given? Json.asU32? value, ← Json.given? Json.asU16? crc, ← Json.given? Json.asBool? valid⟩

end PointerRow

end FlashImage
