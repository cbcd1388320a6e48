import FlashImage.Algorithms
import FlashImage.Image
import FlashImage.Metadata.LayoutEntry
import FlashImage.Metadata.SectionRecord

/-!
# The index of an extraction

Among the files of an extraction, one is the index. It describes the image as a whole, has a record for
each section, and lists the pieces that the image is put together from. The description is there for
the reader; putting the image together again needs only the size of the image, its digest, the records
and the pieces.

## Parts

* `CrcDescriptor` and `CrcInfo` — the two CRCs, spelled out;
* `ImageSummary`, `PointersSummary`, `TocSummary` and `Boundaries` — the parts of an image;
* `Metadata` — the index.
-/

namespace FlashImage

/-! ### The CRCs, spelled out -/

/-- **The parameters of a CRC.** -/
structure CrcDescriptor where
  polynomial : UInt16
  /-- The register before the first bit. -/
  initial : UInt16
  /-- What the result is combined with. -/
  mask : UInt16
  /-- Whether sixteen zero bits follow the input. -/
  augmented : Bool
  /-- Whether the input is padded to whole dwords. -/
  padded : Bool
  deriving DecidableEq

namespace CrcDescriptor

def toJson (d : CrcDescriptor) : Json :=
  .record [("poly", .nat d.polynomial.toNat), ("init", .nat d.initial.toNat),
    ("xorout", .nat d.mask.toNat), ("augmented", .bool d.augmented),
    ("dword_padded", .bool d.padded)]

def ofJson? (j : Json) : Option CrcDescriptor := do
  let [polynomial, initial, mask, augmented, padded] ←
    j.fields? ["poly", "init", "xorout", "augmented", "dword_padded"] | none
  return ⟨← Json.given? Json.asU16? polynomial, ← Json.given? Json.asU16? initial,
    ← Json.given? Json.asU16? mask, ← Json.given? Json.asBool? augmented,
    ← Json.given? Json.asBool? padded⟩

end CrcDescriptor

/-- **Both CRCs.** -/
structure CrcInfo where
  software : CrcDescriptor
  hardware : CrcDescriptor
  deriving DecidableEq

namespace CrcInfo

/-- The CRCs that images are checked with. -/
def standard : CrcInfo := {
  software := ⟨Crc.polynomial, 0xffff, 0xffff, true, true⟩
  hardware := ⟨Crc.polynomial, 0xffff, 0, false, false⟩ }

def toJson (i : CrcInfo) : Json :=
  .record [("software", i.software.toJson), ("hardware", i.hardware.toJson)]

def ofJson? (j : Json) : Option CrcInfo := do
  let [software, hardware] ← j.fields? ["software", "hardware"] | none
  return ⟨← Json.given? CrcDescriptor.ofJson? software, ← Json.given? CrcDescriptor.ofJson? hardware⟩

end CrcInfo

/-! ### Parts of an image -/

/-- **The image as a whole**: its size, and its digest in hexadecimal. -/
structure ImageSummary where
  size : Nat
  sha256 : String
  deriving DecidableEq

namespace ImageSummary

def toJson (s : ImageSummary) : Json :=
  .record [("original_size", .nat s.size), ("sha256", .text s.sha256)]

def ofJson? (j : Json) : Option ImageSummary := do
  let [size, sha256] ← j.fields? ["original_size", "sha256"] | none
  return ⟨← Json.given? Json.asSize? size, ← Json.given? Json.asText? sha256⟩

end ImageSummary

/-- **The pointer array**, as bytes and as it is listed. -/
structure PointersSummary where
  offset : Nat
  bytes : Bytes
  rows : List PointerRow
  deriving DecidableEq

namespace PointersSummary

def toJson (s : PointersSummary) : Json :=
  .record [("offset", .nat s.offset), ("raw_data", Hex.toJson s.bytes),
    ("parsed", .list PointerRow.toJson s.rows)]

def ofJson? (j : Json) : Option PointersSummary := do
  let [offset, bytes, rows] ← j.fields? ["offset", "raw_data", "parsed"] | none
  return ⟨← Json.given? Json.asSize? offset, ← Json.given? Hex.ofJson? bytes,
    ← Json.given? (Json.asList? PointerRow.ofJson?) rows⟩

end PointersSummary

/-- **A table**, by its place and its header. -/
structure TocSummary where
  address : Nat
  headerValid : Bool
  header : Bytes
  deriving DecidableEq

namespace TocSummary

def ofToc (t : PlacedToc) : TocSummary :=
  ⟨t.address, t.toc.header.status = .valid, t.toc.header.encode⟩

def toJson (s : TocSummary) : Json :=
  .record [("address", .nat s.address), ("header_valid", .bool s.headerValid),
    ("raw_header", Hex.toJson s.header)]

def ofJson? (j : Json) : Option TocSummary := do
  let [address, headerValid, header] ← j.fields? ["address", "header_valid", "raw_header"] | none
  return ⟨← Json.given? Json.asSize? address, ← Json.given? Json.asBool? headerValid,
    ← Json.given? Hex.ofJson? header⟩

end TocSummary

/-- **The bounds of an image.** -/
structure Boundaries where
  first : Nat
  last : Nat
  sectorSize : Nat
  deriving DecidableEq

namespace Boundaries

def toJson (b : Boundaries) : Json :=
  .record [("image_start", .nat b.first), ("image_end", .nat b.last),
    ("sector_size", .nat b.sectorSize)]

def ofJson? (j : Json) : Option Boundaries := do
  let [first, last, sectorSize] ← j.fields? ["image_start", "image_end", "sector_size"] | none
  return ⟨← Json.given? Json.asSize? first, ← Json.given? Json.asSize? last,
    ← Json.given? Json.asSize? sectorSize⟩

end Boundaries

/-! ### The index -/

/-- **The index of an extraction.** -/
structure Metadata where
  format : Format
  image : ImageSummary
  anchor : Magic.Info
  pointers : PointersSummary
  itoc : TocSummary
  dtoc : Option TocSummary
  encrypted : Bool
  sections : List SectionRecord
  layout : List LayoutEntry
  crcInfo : CrcInfo
  boundaries : Boundaries
  diagnostics : List Diagnostic
  deriving DecidableEq

namespace Metadata

/-- The name of the index among the files. -/
def fileName : String := "firmware_metadata.json"

/-- The digest of a byte string, as it is recorded. -/
def digestOf [Algorithms] (data : Bytes) : String := Hex.encode (Algorithms.digest data)

/-- **The index of an image** whose pieces are kept as told. -/
def ofImage [Algorithms] (i : Image) (sections : List SectionRecord) (layout : List LayoutEntry) :
    Metadata := {
  format := i.format
  image := ⟨i.data.length, digestOf i.data⟩
  anchor := .found i.base
  pointers := ⟨i.pointersOffset, i.pointers.encode, i.pointers.rows i.format⟩
  itoc := .ofToc i.itoc
  dtoc := i.dtoc.map .ofToc
  encrypted := i.encrypted
  sections := sections
  layout := layout
  crcInfo := .standard
  boundaries := ⟨0, i.data.length, Image.sectorSize⟩
  diagnostics := i.diagnostics }

def toJson (m : Metadata) : Json :=
  .record [
    ("format", m.format.toJson), ("firmware_file", m.image.toJson),
    ("magic_pattern", m.anchor.toJson), ("hw_pointers", m.pointers.toJson),
    ("itoc", m.itoc.toJson), ("dtoc", .option TocSummary.toJson m.dtoc),
    ("is_encrypted", .bool m.encrypted), ("sections", .list SectionRecord.toJson m.sections),
    ("memory_layout", .list LayoutEntry.toJson m.layout), ("crc_info", m.crcInfo.toJson),
    ("boundaries", m.boundaries.toJson),
    ("diagnostics", .list Diagnostic.toJson m.diagnostics)]

/-- The names of the fields in JSON, in order. -/
def jsonFields : List String :=
  ["format", "firmware_file", "magic_pattern", "hw_pointers", "itoc", "dtoc", "is_encrypted",
    "sections", "memory_layout", "crc_info", "boundaries", "diagnostics"]

/-- An index without findings, which need not be given. -/
def ofJson? (j : Json) : Option Metadata := do
  let [format, image, anchor, pointers, itoc, dtoc, encrypted, sections, layout, crcInfo, boundaries,
    diagnostics] ← j.fieldsFrom? (jsonFields.length - 1) jsonFields | none
  return {
    format := ← Json.given? Format.ofJson? format
    image := ← Json.given? ImageSummary.ofJson? image
    anchor := ← Json.given? Magic.Info.ofJson? anchor
    pointers := ← Json.given? PointersSummary.ofJson? pointers
    itoc := ← Json.given? TocSummary.ofJson? itoc
    dtoc := ← Json.optional? TocSummary.ofJson? dtoc
    encrypted := ← Json.given? Json.asBool? encrypted
    sections := ← Json.given? (Json.asList? SectionRecord.ofJson?) sections
    layout := ← Json.given? (Json.asList? (LayoutEntry.ofJson? 2)) layout
    crcInfo := ← Json.given? CrcInfo.ofJson? crcInfo
    boundaries := ← Json.given? Boundaries.ofJson? boundaries
    diagnostics := ← match diagnostics with
      | none => some []
      | some j => j.asList? Diagnostic.ofJson? }

end Metadata

end FlashImage
