import FlashImage.Toc.Kind

/-!
# Findings

Nothing that is wrong with a part of an image keeps the rest from being read. What is wrong becomes a
finding, in the order in which it is found, and the part it is about is kept as raw bytes.
-/

namespace FlashImage

/-- **A finding** about an image. -/
inductive Diagnostic where
  | badPointerCrc (index : Nat) (stored computed : UInt16)
  | badHeaderCrc (toc : TocKind) (address : Nat) (stored computed : UInt16)
  | badEntryCrc (toc : TocKind) (index : Nat) (stored computed : UInt16)
  | badSectionCrc (type : String) (offset : Nat) (stored computed : UInt16)
  /-- A pointer leads to something that is not the table it should lead to. -/
  | badTocSignature (toc : TocKind) (address : Nat) (expected found : UInt32)
  | sectionOverlap (first : String) (firstRange : Nat × Nat) (second : String)
      (secondRange : Nat × Nat)
  | decodeFailure (type : String) (offset : Nat) (reason : String)
  | truncated (what : String) (offset length size : Nat)
  | outOfOrderEntry (toc : TocKind) (index address : Nat)
  | duplicateEntry (toc : TocKind) (index : Nat) (type : String)
  | deviceDataInItoc (index : Nat) (type : String)
  | unknownSectionType (code : UInt16) (offset : Nat)
  deriving DecidableEq

namespace Diagnostic

/-- **Whether a checksum failed**, as opposed to a finding about the layout. -/
def isCrcError : Diagnostic → Bool
  | badPointerCrc .. | badHeaderCrc .. | badEntryCrc .. | badSectionCrc .. => true
  | _ => false

/-- A stored and a computed CRC, side by side. -/
def crcPair (stored computed : UInt16) : String :=
  s!"CRC {Text.hex 4 stored.toNat}, computed {Text.hex 4 computed.toNat}"

/-- The start and the end of a range. -/
def rangeText (range : Nat × Nat) : String := s!"{Text.hex 8 range.1}:{Text.hex 8 range.2}"

/-- **The wording of a finding.** -/
def message : Diagnostic → String
  | badPointerCrc index stored computed =>
    s!"hardware pointer {Text.decimal index}: {crcPair stored computed}"
  | badHeaderCrc toc address stored computed =>
    s!"{toc.name} header @ {Text.hex 8 address}: {crcPair stored computed}"
  | badEntryCrc toc index stored computed =>
    s!"{toc.name} entry {Text.decimal index}: {crcPair stored computed}"
  | badSectionCrc type offset stored computed =>
    s!"{type} @ {Text.hex 8 offset}: {crcPair stored computed}"
  | badTocSignature toc address expected found =>
    s!"{toc.name} @ {Text.hex 8 address}: signature {Text.hex 8 found.toNat}, " ++
      s!"expected {Text.hex 8 expected.toNat}"
  | sectionOverlap first firstRange second secondRange =>
    s!"{first} {rangeText firstRange} overlaps {second} {rangeText secondRange}"
  | decodeFailure type offset reason => s!"{type} @ {Text.hex 8 offset} kept raw: {reason}"
  | truncated what offset length size =>
    s!"{what} @ {Text.hex 8 offset} (0x{Text.hex 1 length} bytes) " ++
      s!"exceeds image size {Text.hex 8 size}"
  | outOfOrderEntry toc index address =>
    s!"{toc.name} entry {Text.decimal index} @ {Text.hex 8 address} is out of order"
  | duplicateEntry toc index type => s!"{toc.name} entry {Text.decimal index} duplicates {type}"
  | deviceDataInItoc index type => s!"ITOC entry {Text.decimal index} ({type}) claims device data"
  | unknownSectionType code offset =>
    s!"unknown section type {Text.hex 2 code.toNat} @ {Text.hex 8 offset}"

/-! ### JSON -/

/-- A range, as an array of its two ends. -/
def rangeJson (range : Nat × Nat) : Json := .arr [.nat range.1, .nat range.2]

/-- The range written as an array of its two ends. -/
def rangeOfJson? (j : Json) : Option (Nat × Nat) := do
  let [first, last] ← j.asList? Json.asSize? | none
  return (first, last)

/-- The members that every failed checksum has. -/
def crcMembers (stored computed : UInt16) : List (String × Json) :=
  [("expected", .nat stored.toNat), ("computed", .nat computed.toNat)]

def toJson : Diagnostic → Json
  | badPointerCrc index stored computed =>
    .variant "BadHwPtrCrc" (.record (("index", .nat index) :: crcMembers stored computed))
  | badHeaderCrc toc address stored computed =>
    .variant "BadHeaderCrc"
      (.record (("toc", toc.toJson) :: ("address", .nat address) :: crcMembers stored computed))
  | badEntryCrc toc index stored computed =>
    .variant "BadEntryCrc"
      (.record (("toc", toc.toJson) :: ("index", .nat index) :: crcMembers stored computed))
  | badSectionCrc type offset stored computed =>
    .variant "BadSectionCrc"
      (.record (("section_type", .text type) :: ("offset", .nat offset)
        :: crcMembers stored computed))
  | badTocSignature toc address expected found =>
    .variant "BadTocSignature"
      (.record [("toc", toc.toJson), ("address", .nat address), ("expected", .nat expected.toNat),
        ("found", .nat found.toNat)])
  | sectionOverlap first firstRange second secondRange =>
    .variant "SectionOverlap"
      (.record [("first", .text first), ("first_range", rangeJson firstRange),
        ("second", .text second), ("second_range", rangeJson secondRange)])
  | decodeFailure type offset reason =>
    .variant "DecodeFailure"
      (.record [("section_type", .text type), ("offset", .nat offset), ("reason", .text reason)])
  | truncated what offset length size =>
    .variant "Truncated"
      (.record [("what", .text what), ("offset", .nat offset), ("len", .nat length),
        ("size", .nat size)])
  | outOfOrderEntry toc index address =>
    .variant "OutOfOrderEntry"
      (.record [("toc", toc.toJson), ("index", .nat index), ("address", .nat address)])
  | duplicateEntry toc index type =>
    .variant "DuplicateEntry"
      (.record [("toc", toc.toJson), ("index", .nat index), ("section_type", .text type)])
  | deviceDataInItoc index type =>
    .variant "DeviceDataInItoc" (.record [("index", .nat index), ("section_type", .text type)])
  | unknownSectionType code offset =>
    .variant "UnknownSectionType" (.record [("code", .nat code.toNat), ("offset", .nat offset)])

open Json in
def ofJson? (j : Json) : Option Diagnostic := do
  let (name, some payload) ← j.asVariant? | none
  match name with
  | "BadHwPtrCrc" =>
    let [index, stored, computed] ← payload.fields? ["index", "expected", "computed"] | none
    return badPointerCrc (← given? asSize? index) (← given? asU16? stored) (← given? asU16? computed)
  | "BadHeaderCrc" =>
    let [toc, address, stored, computed] ← payload.fields? ["toc", "address", "expected", "computed"]
      | none
    return badHeaderCrc (← given? TocKind.ofJson? toc) (← given? asSize? address)
      (← given? asU16? stored) (← given? asU16? computed)
  | "BadEntryCrc" =>
    let [toc, index, stored, computed] ← payload.fields? ["toc", "index", "expected", "computed"]
      | none
    return badEntryCrc (← given? TocKind.ofJson? toc) (← given? asSize? index)
      (← given? asU16? stored) (← given? asU16? computed)
  | "BadSectionCrc" =>
    let [type, offset, stored, computed] ←
      payload.fields? ["section_type", "offset", "expected", "computed"] | none
    return badSectionCrc (← given? asText? type) (← given? asSize? offset)
      (← given? asU16? stored) (← given? asU16? computed)
  | "BadTocSignature" =>
    let [toc, address, expected, found] ← payload.fields? ["toc", "address", "expected", "found"]
      | none
    return badTocSignature (← given? TocKind.ofJson? toc) (← given? asSize? address)
      (← given? asU32? expected) (← given? asU32? found)
  | "SectionOverlap" =>
    let [first, firstRange, second, secondRange] ←
      payload.fields? ["first", "first_range", "second", "second_range"] | none
    return sectionOverlap (← given? asText? first) (← given? rangeOfJson? firstRange)
      (← given? asText? second) (← given? rangeOfJson? secondRange)
  | "DecodeFailure" =>
    let [type, offset, reason] ← payload.fields? ["section_type", "offset", "reason"] | none
    return decodeFailure (← given? asText? type) (← given? asSize? offset) (← given? asText? reason)
  | "Truncated" =>
    let [what, offset, length, size] ← payload.fields? ["what", "offset", "len", "size"] | none
    return truncated (← given? asText? what) (← given? asSize? offset) (← given? asSize? length)
      (← given? asSize? size)
  | "OutOfOrderEntry" =>
    let [toc, index, address] ← payload.fields? ["toc", "index", "address"] | none
    return outOfOrderEntry (← given? TocKind.ofJson? toc) (← given? asSize? index)
      (← given? asSize? address)
  | "DuplicateEntry" =>
    let [toc, index, type] ← payload.fields? ["toc", "index", "section_type"] | none
    return duplicateEntry (← given? TocKind.ofJson? toc) (← given? asSize? index)
      (← given? asText? type)
  | "DeviceDataInItoc" =>
    let [index, type] ← payload.fields? ["index", "section_type"] | none
    return deviceDataInItoc (← given? asSize? index) (← given? asText? type)
  | "UnknownSectionType" =>
    let [code, offset] ← payload.fields? ["code", "offset"] | none
    return unknownSectionType (← given? asU16? code) (← given? asSize? offset)
  | _ => none

end Diagnostic

end FlashImage
