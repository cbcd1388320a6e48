import FlashImage.Machine.Encoders
import FlashImage.Repack

/-!
# Putting an image together, step by step

Each piece of the layout is made in full before its size is compared with the one that the index gives, and
the image is there before the first piece is. So there has to be room for whatever a source says: for the
image, for a gap of the size in its description, for a projection that is written, and for a CRC dword behind
the contents of a section.
-/

namespace FlashImage.Machine

/-! ### Pieces -/

/-- The bytes of a gap. Room for a gap that is described is made before its size is compared. -/
def gapBytes (read : FileReader) (fileName : String) (size : Nat) (fill : Option UInt8) :
    Step RepackError Bytes := do
  let contents ← settled (read fileName)
  match fill with
  | some _ =>
    let (found, b) ← settled ((GapFile.read contents.toStringLossy).mapError (.badGapFile fileName))
    allocate found
    if found = size then return List.replicate size b
    else throw (.sizeMismatch fileName size found)
  | none =>
    if contents.length = size then return contents
    else throw (.sizeMismatch fileName size contents.length)

def projectedBytes (read : FileReader) (file : String) : Step RepackError Bytes := do
  let contents ← settled (read file)
  match (Json.parse? contents).bind Projection.ofJson? with
  | some p => (encode p).adapt (.encode file)
  | none => throw (.malformedSection file)

def sectionPayload (read : FileReader) (r : SectionRecord) : Step RepackError Bytes :=
  match if r.keepsBytes then none else r.jsonFile, r.fileName with
  | some file, _ => projectedBytes read file
  | none, some file => settled (read file)
  | none, none => throw (.missingFile r.label)

/-- The bytes of a section. A CRC dword takes room behind the contents. -/
def sectionBytes (read : FileReader) (r : SectionRecord) : Step RepackError Bytes := do
  let contents ← sectionPayload read r
  if contents.length = r.size then
    if r.stripped then
      allocate (contents.length + Section.trailerSize)
      return contents ++ Bytes.u32 (trailerOf r contents)
    else return contents
  else throw (.sizeMismatch r.label r.size contents.length)

def pieceOf (read : FileReader) (sections : List SectionRecord) :
    LayoutEntry → Step RepackError (String × Nat × Bytes)
  | .gap first _ size fill fileName => do
    return (fileName, first, ← gapBytes read fileName size fill)
  | .section index type first _ _ =>
    match sections[index]? with
    | none => throw (.unknownSection index sections.length)
    | some r =>
      if r.offset = first then do return (r.typeName, first, ← sectionBytes read r)
      else throw (.misplacedSection type first r.offset)

/-! ### The image -/

def writePiece (read : FileReader) (sections : List SectionRecord) (image : Bytes) (entry : LayoutEntry) :
    Step RepackError Bytes := do
  let (name, offset, bytes) ← pieceOf read sections entry
  (put image offset bytes).adapt (.encode name)

def assemble (read : FileReader) (m : Metadata) : Step RepackError Bytes := do
  m.layout.foldlM (writePiece read m.sections) (← filled m.image.size 0xff)

/-- **Putting an image together** from a source. -/
def repack [Algorithms] (src : FileSource) (verify : Bool) : Step RepackError Bytes := do
  let m ← settled src.metadata
  let image ← assemble src.read m
  let digest := Metadata.digestOf image
  if verify && digest ≠ m.image.sha256 then throw (.digestMismatch m.image.sha256 digest)
  else return image

end FlashImage.Machine
