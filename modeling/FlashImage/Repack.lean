import FlashImage.Extraction
import FlashImage.Json.Reader

/-!
# Putting an image together

The index alone says what an image consists of. Starting from erased flash, each piece of the layout is
written at its place, later pieces over earlier ones: a section from its JSON form or from its bytes, a
gap from its description or from its bytes. A CRC dword that was split off is put back as it was if
the contents still have the CRC that was computed for them, and is made anew otherwise.

Files are looked up by name through a `FileReader`, so the same rules hold for files in memory and for
files in a directory.

A piece can be of any size here. In a program there has to be room for it, which is asked for before its size
is compared with the index: `Machine.repack` is the same with these requests, and is what runs.

## Parts

* `RepackError` and its wording;
* `FileReader` — where files come from;
* the bytes of a gap and of a section;
* `FileSource`, a source of files and of their index, and `repack`.
-/

namespace FlashImage

/-! ### Errors -/

/-- **Why an image cannot be put together.** -/
inductive RepackError where
  /-- The index is not one. -/
  | malformedMetadata
  /-- The layout names a section that has no record. -/
  | unknownSection (index count : Nat)
  /-- The layout and the record of a section disagree about its place. -/
  | misplacedSection (type : String) (layout record : Nat)
  | missingFile (name : String)
  | badGapFile (file : String) (fault : GapFile.Fault)
  | sizeMismatch (what : String) (expected found : Nat)
  /-- A file does not hold a projection. -/
  | malformedSection (file : String)
  | encode (what : String) (e : AccessError)
  /-- The result is not the image that the index was made for. -/
  | digestMismatch (expected found : String)
  /-- A file is there but cannot be read. -/
  | io (reason : String)
  deriving DecidableEq

namespace RepackError

/-- What stands for the reason that a text is not the JSON expected. -/
def jsonReason : String := "<json>"

/-- The wording of an error. -/
def message : RepackError → String
  | malformedMetadata => s!"bad metadata: {jsonReason}"
  | unknownSection index count =>
    s!"bad metadata: layout names section {Text.decimal index}, there are {Text.decimal count}"
  | misplacedSection type layout record =>
    s!"bad metadata: {type}: layout says {Text.hex 8 layout}, section says {Text.hex 8 record}"
  | missingFile name => s!"missing file {name}"
  | badGapFile file fault => s!"bad gap file {file}: {fault.message}"
  | sizeMismatch what expected found =>
    s!"{what}: expected {Text.decimal expected} bytes, got {Text.decimal found}"
  | malformedSection file => s!"cannot encode {file}: {jsonReason}"
  | encode what e => s!"cannot encode {what}: {e.message}"
  | digestMismatch expected found =>
    s!"repacked image hash {found} differs from original {expected}"
  | io reason => reason

end RepackError

/-! ### Files -/

/-- **Where files come from**: the contents of a file, by name. -/
abbrev FileReader := String → Except RepackError Bytes

/-- Reading from files in memory. -/
def Files.reader (files : Files) : FileReader := fun name =>
  match files.get? name with
  | some contents => .ok contents
  | none => .error (.missingFile name)

/-- The index among the files. -/
def readMetadata (read : FileReader) : Except RepackError Metadata := do
  let contents ← read Metadata.fileName
  match (Json.parse? contents).bind Metadata.ofJson? with
  | some m => .ok m
  | none => .error .malformedMetadata

/-! ### Pieces -/

/-- **The bytes of a gap** of `size` bytes. The file of a uniform gap is a description; with which
byte the layout says that it is filled does not matter. -/
def gapBytes (read : FileReader) (fileName : String) (size : Nat) (fill : Option UInt8) :
    Except RepackError Bytes := do
  let contents ← read fileName
  match fill with
  | some _ =>
    let (found, b) ← (GapFile.read contents.toStringLossy).mapError (.badGapFile fileName)
    if found = size then return List.replicate size b
    else .error (.sizeMismatch fileName size found)
  | none =>
    if contents.length = size then return contents
    else .error (.sizeMismatch fileName size contents.length)

/-- The contents that a file with a projection stands for. -/
def projectedBytes (read : FileReader) (file : String) : Except RepackError Bytes := do
  let contents ← read file
  match (Json.parse? contents).bind Projection.ofJson? with
  | some p => p.encode.mapError (.encode file)
  | none => .error (.malformedSection file)

/-- **The contents of a section**: from its JSON form, if that says everything, and else from its
bytes. -/
def sectionPayload (read : FileReader) (r : SectionRecord) : Except RepackError Bytes :=
  match if r.keepsBytes then none else r.jsonFile, r.fileName with
  | some file, _ => projectedBytes read file
  | none, some file => read file
  | none, none => .error (.missingFile r.label)

/-- **The CRC dword of a section** with the given contents: the one that was split off if their CRC is
still the one computed then, and else a new one. -/
def trailerOf (r : SectionRecord) (contents : Bytes) : UInt32 :=
  let crc := r.algorithm.compute contents
  match r.trailer, r.computedCrc with
  | some dword, some computed => if computed = crc then dword else r.slot.set 0 crc
  | _, _ => r.slot.set 0 crc

/-- **The bytes of a section**, with its CRC dword put back. -/
def sectionBytes (read : FileReader) (r : SectionRecord) : Except RepackError Bytes := do
  let contents ← sectionPayload read r
  if contents.length = r.size then
    return if r.stripped then contents ++ Bytes.u32 (trailerOf r contents) else contents
  else .error (.sizeMismatch r.label r.size contents.length)

/-- **A piece of the image**: what it is called, where it goes, and its bytes. -/
def pieceOf (read : FileReader) (sections : List SectionRecord) :
    LayoutEntry → Except RepackError (String × Nat × Bytes)
  | .gap first _ size fill fileName => do
    return (fileName, first, ← gapBytes read fileName size fill)
  | .section index type first _ _ =>
    match sections[index]? with
    | none => .error (.unknownSection index sections.length)
    | some r =>
      if r.offset = first then do return (r.typeName, first, ← sectionBytes read r)
      else .error (.misplacedSection type first r.offset)

/-! ### The image -/

/-- An image with a piece of the layout written over it. -/
def writePiece (read : FileReader) (sections : List SectionRecord) (image : Bytes)
    (entry : LayoutEntry) : Except RepackError Bytes := do
  let (name, offset, bytes) ← pieceOf read sections entry
  (image.put? offset bytes).mapError (.encode name)

/-- **The image that an index describes.** -/
def assemble (read : FileReader) (m : Metadata) : Except RepackError Bytes :=
  m.layout.foldlM (writePiece read m.sections) (List.replicate m.image.size 0xff)

/-! ### Sources -/

/-- **A source of files and of their index.** The index is one of the files, unless the source has another
one. -/
structure FileSource where
  read : FileReader
  metadata : Except RepackError Metadata

namespace FileSource

/-- The source whose index is one of its files. -/
def ofReader (read : FileReader) : FileSource := ⟨read, readMetadata read⟩

/-- **Putting an image together** from a source; with `verify`, only if it is the very image that the index
was made for. -/
def repack [Algorithms] (src : FileSource) (verify : Bool) : Except RepackError Bytes := do
  let m ← src.metadata
  let image ← assemble src.read m
  let digest := Metadata.digestOf image
  if verify && digest ≠ m.image.sha256 then .error (.digestMismatch m.image.sha256 digest)
  else return image

end FileSource

/-- Putting an image together from files, the index among them. -/
def repack [Algorithms] (read : FileReader) (verify : Bool) : Except RepackError Bytes :=
  (FileSource.ofReader read).repack verify

end FlashImage
