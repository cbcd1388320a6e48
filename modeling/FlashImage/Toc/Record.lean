import FlashImage.BitField
import FlashImage.Catalog
import FlashImage.Toc.Kind

/-!
# Records of a table of contents

A table consists of records of 32 bytes: one header, and an entry for each section. A record is kept
as its eight dwords, and all named fields are views onto them, so a record is written back exactly as
it was read, whatever its reserved bits are.

Each kind of record ends with a CRC over the rest of itself. `TocHeader.sealed` and `TocEntry.sealed`
bring it up to date after an edit.

## Parts

* `TocRecord` — eight dwords;
* `TocHeader` and its fields;
* `TocEntry` and its fields;
* `TocHeader.View` and `TocEntry.View` — a record spelled out field by field, with the reserved bits
  beside the fields; the JSON form of a record is its view.
-/

namespace FlashImage

/-! ### Eight dwords -/

/-- **A record**, as its eight dwords. -/
structure TocRecord where
  dwords : List UInt32
  length_dwords : dwords.length = 8
  deriving DecidableEq

namespace TocRecord

/-- The number of bytes of a stored record. -/
def size : Nat := 32

/-- A record with all dwords alike. -/
def fill (dword : UInt32) : TocRecord := ⟨List.replicate 8 dword, by simp⟩

/-- The record stored at an offset. -/
def decodeAt (bs : Bytes) (offset : Nat) : TocRecord :=
  ⟨(List.range 8).map fun i => bs.u32At (offset + i * 4), by simp⟩

/-- The record at the front of a byte string. -/
def decode (bs : Bytes) : Except AccessError TocRecord :=
  if size ≤ bs.length then .ok (decodeAt bs 0) else .error (.shortBuffer 0 size bs.length)

/-- The stored form of a record. -/
def encode (r : TocRecord) : Bytes := Bytes.ofDwords r.dwords

/-- A record with a field replaced by the low bits of `value`. -/
def replace (r : TocRecord) (f : BitField) (value : UInt32) : TocRecord :=
  ⟨f.replace r.dwords value, by rw [BitField.length_replace, r.length_dwords]⟩

/-- A record with a field set, if the value fits it. -/
def set (r : TocRecord) (f : BitField) (value : UInt32) : Except AccessError TocRecord :=
  match h : f.set r.dwords value with
  | .ok dwords => .ok ⟨dwords, by rw [BitField.length_set h, r.length_dwords]⟩
  | .error e => .error e

/-- A record with all bits cleared that some field covers. -/
def reserved (r : TocRecord) (fields : List BitField) : TocRecord :=
  ⟨reservedBits fields r.dwords, by rw [length_reservedBits, r.length_dwords]⟩

/-- Set fields one after the other, stopping at the first value that does not fit. -/
def setAll (r : TocRecord) (values : List (BitField × UInt32)) : Except AccessError TocRecord :=
  values.foldlM (fun r (f, value) => r.set f value) r

def toJson (r : TocRecord) : Json := .list (fun d => .nat d.toNat) r.dwords

def ofJson? (j : Json) : Option TocRecord := do
  let dwords ← j.asList? Json.asU32?
  if h : dwords.length = 8 then some ⟨dwords, h⟩ else none

end TocRecord

/-! ### The header -/

/-- **The header of a table.** -/
structure TocHeader where
  record : TocRecord
  deriving DecidableEq

namespace TocHeader

def signatureField : BitField := { name := "signature", dword := 0, msb := 31, lsb := 0 }
def versionField : BitField := { name := "version", dword := 4, msb := 7, lsb := 0 }
def entriesCrcField : BitField := { name := "entries_crc", dword := 6, msb := 15, lsb := 0 }
def headerCrcField : BitField := { name := "header_crc", dword := 7, msb := 15, lsb := 0 }

/-- **The fields of a header.** -/
def fields : List BitField := [signatureField, versionField, entriesCrcField, headerCrcField]

/-- The value of a field. -/
def get (h : TocHeader) (f : BitField) : UInt32 := f.get h.record.dwords

def signature (h : TocHeader) : UInt32 := h.get signatureField
def version (h : TocHeader) : UInt8 := (h.get versionField).toUInt8
def entriesCrc (h : TocHeader) : UInt16 := (h.get entriesCrcField).toUInt16
def headerCrc (h : TocHeader) : UInt16 := (h.get headerCrcField).toUInt16

/-- The kind of table a header starts, if it starts one. -/
def kind? (h : TocHeader) : Option TocKind := TocKind.ofSignature? h.signature

def decode (bs : Bytes) : Except AccessError TocHeader := do
  return ⟨← TocRecord.decode bs⟩

def encode (h : TocHeader) : Bytes := h.record.encode

/-- A header with a field set, if the value fits it. -/
def set (h : TocHeader) (f : BitField) (value : UInt32) : Except AccessError TocHeader := do
  return ⟨← h.record.set f value⟩

/-- **The CRC that a header should carry**: over all of it, with the CRC itself cleared. -/
def computedCrc (h : TocHeader) : UInt16 :=
  Crc.software (h.record.replace headerCrcField 0).encode

/-- The outcome of checking a header. -/
def status (h : TocHeader) : CrcStatus := .check h.headerCrc h.computedCrc

/-- A header with its CRC brought up to date. -/
def sealed (h : TocHeader) : TocHeader := ⟨h.record.replace headerCrcField h.computedCrc.toUInt32⟩

/-- A header that starts a table of a kind, and has nothing else set. -/
def ofKind (k : TocKind) : TocHeader :=
  sealed ⟨(TocRecord.fill 0).replace signatureField k.signature⟩

end TocHeader

/-! ### Entries -/

/-- **An entry of a table**: where a section is, and how it is checked. -/
structure TocEntry where
  record : TocRecord
  deriving DecidableEq

namespace TocEntry

def typeField : BitField := { name := "type", dword := 0, msb := 31, lsb := 24 }
def sizeField : BitField := { name := "size_dwords", dword := 0, msb := 21, lsb := 0 }
def zippedField : BitField := { name := "zipped_image", dword := 1, msb := 31, lsb := 31 }
def lineCrcField : BitField := { name := "cache_line_crc", dword := 1, msb := 30, lsb := 30 }
def param0Field : BitField := { name := "param0", dword := 1, msb := 29, lsb := 0 }
def param1Field : BitField := { name := "param1", dword := 2, msb := 31, lsb := 0 }
def versionField : BitField := { name := "version", dword := 4, msb := 15, lsb := 0 }
def addressField : BitField := { name := "flash_addr_dwords", dword := 5, msb := 29, lsb := 1 }
def relativeField : BitField := { name := "relative_addr", dword := 5, msb := 0, lsb := 0 }
def sectionCrcField : BitField := { name := "section_crc", dword := 6, msb := 15, lsb := 0 }
def noCrcField : BitField := { name := "no_crc", dword := 6, msb := 16, lsb := 16 }
def deviceDataField : BitField := { name := "device_data", dword := 6, msb := 17, lsb := 17 }
def encryptedField : BitField := { name := "encrypted", dword := 6, msb := 31, lsb := 31 }
def entryCrcField : BitField := { name := "entry_crc", dword := 7, msb := 15, lsb := 0 }

/-- **The fields of an entry.** -/
def fields : List BitField :=
  [typeField, sizeField, zippedField, lineCrcField, param0Field, param1Field, versionField,
    addressField, relativeField, sectionCrcField, noCrcField, deviceDataField, encryptedField,
    entryCrcField]

/-- The value of a field. -/
def get (e : TocEntry) (f : BitField) : UInt32 := f.get e.record.dwords

/-- Whether a field of one bit is set. -/
def has (e : TocEntry) (f : BitField) : Bool := f.isSet e.record.dwords

def type (e : TocEntry) : UInt8 := (e.get typeField).toUInt8
def sizeDwords (e : TocEntry) : UInt32 := e.get sizeField
def zipped (e : TocEntry) : Bool := e.has zippedField
def lineCrc (e : TocEntry) : Bool := e.has lineCrcField
def param0 (e : TocEntry) : UInt32 := e.get param0Field
def param1 (e : TocEntry) : UInt32 := e.get param1Field
def version (e : TocEntry) : UInt16 := (e.get versionField).toUInt16
def addressDwords (e : TocEntry) : UInt32 := e.get addressField
def relative (e : TocEntry) : Bool := e.has relativeField
def sectionCrc (e : TocEntry) : UInt16 := (e.get sectionCrcField).toUInt16
def noCrc (e : TocEntry) : Bool := e.has noCrcField
def deviceData (e : TocEntry) : Bool := e.has deviceDataField
def encrypted (e : TocEntry) : Bool := e.has encryptedField
def entryCrc (e : TocEntry) : UInt16 := (e.get entryCrcField).toUInt16

/-- The code of the section an entry is about. -/
def code (e : TocEntry) : SectionCode := e.type.toUInt16

/-- The number of bytes of the section. -/
def size (e : TocEntry) : Nat := e.sizeDwords.toNat * 4

/-- The start of the section in bytes, relative to the anchor. -/
def address (e : TocEntry) : Nat := e.addressDwords.toNat * 4

/-- The type that marks the end of a table. -/
def endType : UInt8 := 0xff

/-- Whether an entry marks the end of its table. -/
def isEnd (e : TocEntry) : Bool := e.type = endType

def decode (bs : Bytes) : Except AccessError TocEntry := do
  return ⟨← TocRecord.decode bs⟩

def encode (e : TocEntry) : Bytes := e.record.encode

/-- An entry with a field set, if the value fits it. -/
def set (e : TocEntry) (f : BitField) (value : UInt32) : Except AccessError TocEntry := do
  return ⟨← e.record.set f value⟩

/-- The number of bytes that the CRC of an entry covers: everything in front of it. -/
def coveredLength : Nat := 30

/-- **The CRC that an entry should carry.** -/
def computedCrc (e : TocEntry) : UInt16 := Crc.software (e.encode.take coveredLength)

/-- The outcome of checking an entry. -/
def status (e : TocEntry) : CrcStatus := .check e.entryCrc e.computedCrc

/-- An entry with its CRC brought up to date. -/
def sealed (e : TocEntry) : TocEntry := ⟨e.record.replace entryCrcField e.computedCrc.toUInt32⟩

/-- A number as a dword; a larger one overflows the named field. -/
def toDword (field : String) (n : Nat) : Except AccessError UInt32 :=
  if n < UInt32.size then .ok (UInt32.ofNat n) else .error (.fieldOverflow field n 32)

/-- **An entry for a section** of `size` bytes at `address`, both in whole dwords. -/
def make (type : UInt8) (address size : Nat) : Except AccessError TocEntry := do
  let e : TocEntry := ⟨TocRecord.fill 0⟩
  let e ← e.set typeField type.toUInt32
  let e ← e.set sizeField (← toDword sizeField.name (size / 4))
  let e ← e.set addressField (← toDword addressField.name (address / 4))
  return e.sealed

/-- The entry that marks the end of a table. -/
def endMarker : TocEntry := ⟨TocRecord.fill 0xffffffff⟩

/-- An entry as text. -/
def text (e : TocEntry) : String :=
  let flags := [(e.noCrc, "no_crc"), (e.deviceData, "device"), (e.encrypted, "encrypted"),
    (e.zipped, "zipped")]
  let flagText := ",".intercalate ((flags.filter Prod.fst).map Prod.snd)
  s!"{Text.column 24 e.code.name} @ {Text.hex 8 e.address} (0x{Text.hex 8 e.size})  " ++
    s!"crc {Text.hex 4 e.sectionCrc.toNat}  {flagText}"

end TocEntry

/-! ### Records field by field -/

/-- **A header field by field**, with its reserved bits beside the fields. -/
structure TocHeader.View where
  signature : UInt32
  version : UInt8
  entriesCrc : UInt16
  headerCrc : UInt16
  reserved : TocRecord
  deriving DecidableEq

namespace TocHeader

/-- A header, field by field. -/
def view (h : TocHeader) : View :=
  ⟨h.signature, h.version, h.entriesCrc, h.headerCrc, h.record.reserved fields⟩

/-- **The header a view spells out.** Reserved bits count only outside of the fields. -/
def ofView (v : View) : Except AccessError TocHeader := do
  return ⟨← (v.reserved.reserved fields).setAll
    [(signatureField, v.signature), (versionField, v.version.toUInt32),
      (entriesCrcField, v.entriesCrc.toUInt32), (headerCrcField, v.headerCrc.toUInt32)]⟩

def toJson (h : TocHeader) : Json :=
  let v := h.view
  .record [("signature", .nat v.signature.toNat), ("version", .nat v.version.toNat),
    ("entries_crc", .nat v.entriesCrc.toNat), ("header_crc", .nat v.headerCrc.toNat),
    ("reserved", v.reserved.toJson)]

def ofJson? (j : Json) : Option TocHeader := do
  let [signature, version, entriesCrc, headerCrc, reserved] ←
    j.fields? ["signature", "version", "entries_crc", "header_crc", "reserved"] | none
  let v : View := {
    signature := ← Json.given? Json.asU32? signature
    version := ← Json.given? Json.asU8? version
    entriesCrc := ← Json.given? Json.asU16? entriesCrc
    headerCrc := ← Json.given? Json.asU16? headerCrc
    reserved := ← Json.given? TocRecord.ofJson? reserved }
  (ofView v).toOption

end TocHeader

/-- **An entry field by field**, with its reserved bits beside the fields. -/
structure TocEntry.View where
  type : UInt8
  sizeDwords : UInt32
  zipped : Bool
  lineCrc : Bool
  param0 : UInt32
  param1 : UInt32
  version : UInt16
  addressDwords : UInt32
  relative : Bool
  sectionCrc : UInt16
  noCrc : Bool
  deviceData : Bool
  encrypted : Bool
  entryCrc : UInt16
  reserved : TocRecord
  deriving DecidableEq

namespace TocEntry

/-- An entry, field by field. -/
def view (e : TocEntry) : View :=
  ⟨e.type, e.sizeDwords, e.zipped, e.lineCrc, e.param0, e.param1, e.version, e.addressDwords,
    e.relative, e.sectionCrc, e.noCrc, e.deviceData, e.encrypted, e.entryCrc,
    e.record.reserved fields⟩

/-- **The entry a view spells out**, if all of its values fit their fields. Reserved bits count only
outside of the fields. -/
def ofView (v : View) : Except AccessError TocEntry := do
  return ⟨← (v.reserved.reserved fields).setAll
    [(typeField, v.type.toUInt32), (sizeField, v.sizeDwords), (zippedField, v.zipped.toUInt32),
      (lineCrcField, v.lineCrc.toUInt32), (param0Field, v.param0), (param1Field, v.param1),
      (versionField, v.version.toUInt32), (addressField, v.addressDwords),
      (relativeField, v.relative.toUInt32), (sectionCrcField, v.sectionCrc.toUInt32),
      (noCrcField, v.noCrc.toUInt32), (deviceDataField, v.deviceData.toUInt32),
      (encryptedField, v.encrypted.toUInt32), (entryCrcField, v.entryCrc.toUInt32)]⟩

/-- The JSON form of an entry also names its type, for the reader. -/
def toJson (e : TocEntry) : Json :=
  let v := e.view
  .record [("type", .nat v.type.toNat), ("type_name", .text e.code.name),
    ("size_dwords", .nat v.sizeDwords.toNat), ("zipped_image", .bool v.zipped),
    ("cache_line_crc", .bool v.lineCrc), ("param0", .nat v.param0.toNat),
    ("param1", .nat v.param1.toNat), ("version", .nat v.version.toNat),
    ("flash_addr_dwords", .nat v.addressDwords.toNat), ("relative_addr", .bool v.relative),
    ("section_crc", .nat v.sectionCrc.toNat), ("no_crc", .bool v.noCrc),
    ("device_data", .bool v.deviceData), ("encrypted", .bool v.encrypted),
    ("entry_crc", .nat v.entryCrc.toNat), ("reserved", v.reserved.toJson)]

/-- The fields that are read back; the name of the type is not one of them. -/
def jsonFields : List String :=
  ["type", "size_dwords", "zipped_image", "cache_line_crc", "param0", "param1", "version",
    "flash_addr_dwords", "relative_addr", "section_crc", "no_crc", "device_data", "encrypted",
    "entry_crc", "reserved"]

def ofJson? (j : Json) : Option TocEntry := do
  let [type, sizeDwords, zipped, lineCrc, param0, param1, version, addressDwords, relative,
    sectionCrc, noCrc, deviceData, encrypted, entryCrc, reserved] ← j.fields? jsonFields | none
  let v : View := {
    type := ← Json.given? Json.asU8? type
    sizeDwords := ← Json.given? Json.asU32? sizeDwords
    zipped := ← Json.given? Json.asBool? zipped
    lineCrc := ← Json.given? Json.asBool? lineCrc
    param0 := ← Json.given? Json.asU32? param0
    param1 := ← Json.given? Json.asU32? param1
    version := ← Json.given? Json.asU16? version
    addressDwords := ← Json.given? Json.asU32? addressDwords
    relative := ← Json.given? Json.asBool? relative
    sectionCrc := ← Json.given? Json.asU16? sectionCrc
    noCrc := ← Json.given? Json.asBool? noCrc
    deviceData := ← Json.given? Json.asBool? deviceData
    encrypted := ← Json.given? Json.asBool? encrypted
    entryCrc := ← Json.given? Json.asU16? entryCrc
    reserved := ← Json.given? TocRecord.ofJson? reserved }
  (ofView v).toOption

end TocEntry

end FlashImage
