import FlashImage.Section

/-!
# The record of an extracted section

For each section, the index of an extraction says where the section goes, which files hold it, and how
a CRC dword that was split off is put back.
-/

namespace FlashImage

/-- **The record of an extracted section.** -/
structure SectionRecord where
  code : SectionCode
  typeName : String
  offset : Nat
  /-- The number of bytes in the files, without a CRC dword that is split off. -/
  size : Nat
  /-- The number of bytes in the image. -/
  fullSize : Nat
  place : CrcPlace
  algorithm : CrcAlgorithm
  slot : CrcSlot
  /-- The CRC as it was stored. -/
  storedCrc : Option UInt16
  /-- The CRC dword as it was stored, if it is split off. -/
  trailer : Option UInt32
  /-- The CRC as it was computed. -/
  computedCrc : Option UInt16
  stripped : Bool
  encrypted : Bool
  deviceData : Bool
  fromPointer : Bool
  /-- Whether the JSON form leaves the contents out. -/
  keepsBytes : Bool
  fileName : Option String
  jsonFile : Option String
  entry : Option TocEntry
  deriving DecidableEq

namespace SectionRecord

/-- The record of a section that is kept in the files named. -/
def ofSection [Algorithms] (s : Section) (fileName jsonFile : Option String) : SectionRecord := {
  code := s.code
  typeName := s.name
  offset := s.offset
  size := s.payload.length
  fullSize := s.size
  place := s.place
  algorithm := s.type.algorithm
  slot := s.type.slot
  storedCrc := s.storedCrc
  trailer := s.trailer
  computedCrc := s.computedCrc
  stripped := s.stripped
  encrypted := s.encrypted
  deviceData := s.deviceData
  fromPointer := s.origin.isPointer
  keepsBytes := s.projection.keepsBytes
  fileName := fileName
  jsonFile := jsonFile
  entry := s.entry }

/-- The end of the section in the image. -/
def last (r : SectionRecord) : Nat := r.offset + r.fullSize

/-- The words that name the section in an error. -/
def label (r : SectionRecord) : String := s!"{r.typeName} @ {Text.hex 8 r.offset}"

def toJson (r : SectionRecord) : Json :=
  let n16 (x : UInt16) := Json.nat x.toNat
  .record [
    ("type", n16 r.code), ("type_name", .text r.typeName), ("offset", .nat r.offset),
    ("size", .nat r.size), ("original_size_with_crc", .nat r.fullSize),
    ("crc_type", r.place.toJson), ("crc_algorithm", r.algorithm.toJson),
    ("crc_slot", r.slot.toJson), ("crc_value", .option n16 r.storedCrc),
    ("crc_dword", .option (fun d : UInt32 => .nat d.toNat) r.trailer),
    ("computed_crc", .option n16 r.computedCrc), ("crc_stripped", .bool r.stripped),
    ("is_encrypted", .bool r.encrypted), ("is_device_data", .bool r.deviceData),
    ("is_from_hw_pointer", .bool r.fromPointer), ("has_raw_data", .bool r.keepsBytes),
    ("file_name", .option .text r.fileName), ("json_file", .option .text r.jsonFile),
    ("itoc_entry", .option TocEntry.toJson r.entry)]

/-- The names of the fields in JSON, in order. -/
def jsonFields : List String :=
  ["type", "type_name", "offset", "size", "original_size_with_crc", "crc_type", "crc_algorithm",
    "crc_slot", "crc_value", "crc_dword", "computed_crc", "crc_stripped", "is_encrypted",
    "is_device_data", "is_from_hw_pointer", "has_raw_data", "file_name", "json_file", "itoc_entry"]

def ofJson? (j : Json) : Option SectionRecord := do
  let [code, typeName, offset, size, fullSize, place, algorithm, slot, storedCrc, trailer,
    computedCrc, stripped, encrypted, deviceData, fromPointer, keepsBytes, fileName, jsonFile,
    entry] ← j.fields? jsonFields | none
  return {
    code := ← Json.given? Json.asU16? code
    typeName := ← Json.given? Json.asText? typeName
    offset := ← Json.given? Json.asSize? offset
    size := ← Json.given? Json.asSize? size
    fullSize := ← Json.given? Json.asSize? fullSize
    place := ← Json.given? CrcPlace.ofJson? place
    algorithm := ← Json.given? CrcAlgorithm.ofJson? algorithm
    slot := ← Json.given? CrcSlot.ofJson? slot
    storedCrc := ← Json.optional? Json.asU16? storedCrc
    trailer := ← Json.optional? Json.asU32? trailer
    computedCrc := ← Json.optional? Json.asU16? computedCrc
    stripped := ← Json.given? Json.asBool? stripped
    encrypted := ← Json.given? Json.asBool? encrypted
    deviceData := ← Json.given? Json.asBool? deviceData
    fromPointer := ← Json.given? Json.asBool? fromPointer
    keepsBytes := ← Json.given? Json.asBool? keepsBytes
    fileName := ← Json.optional? Json.asText? fileName
    jsonFile := ← Json.optional? Json.asText? jsonFile
    entry := ← Json.optional? TocEntry.ofJson? entry }

end SectionRecord

end FlashImage
