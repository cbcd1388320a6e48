import FlashImage.Extraction
import FlashImage.Machine.Image

/-!
# Taking an image apart, step by step

Of an image that was read one can ask for its gaps and for its files. The bounds of a gap are the ends of
sections, or of the image. The files are made section by section and gap by gap, and what has been made so far
is the state of the loop (`Progress`, `GapProgress`): sections with one code are numbered by a count of them,
and the files are counted as they are made.
-/

namespace FlashImage.Machine

/-! ### Gaps -/

def gapUpTo (data : Bytes) (first last : Nat) : Run (List Gap) := do
  if first < last then return [⟨first, last, Gap.fillOf (← sliceBetween data first last)⟩] else return []

/-- The gaps from an offset on, around sections in order of place. -/
def gapsFrom (data : Bytes) (pos : Nat) : List Section → Run (List Gap)
  | [] => gapUpTo data pos data.length
  | s :: rest => do
    let front ← gapUpTo data pos s.offset
    return front ++ (← gapsFrom data (max pos (← last s)) rest)

def gaps (p : Parsed) : Run (List Gap) := gapsFrom p.image.data 0 (p.sections.map (·.subject))

def gapSize (g : Gap) : Run Nat := sub g.last g.first

/-! ### JSON -/

def entryJson? (e : Option TocEntry) : Run Json :=
  match e with
  | some e => entryJson e
  | none => return .null

def tocJson (t : Toc) : Run Json := do
  return .record [("kind", t.kind.toJson), ("header", ← headerJson t.header),
    ("entries", .arr (← t.entries.mapM entryJson)), ("end", ← entryJson? t.endMarker)]

/-- A projection as JSON. Only tables are taken apart to be written. -/
def projectionJson (p : Projection) : Run Json :=
  match p with
  | .toc t => return .variant p.name (← tocJson t)
  | _ => return p.toJson

/-- The index as JSON. The entries in it are taken apart to be written. -/
def indexJson (m : Metadata) : Run Json := do
  let _ ← m.sections.mapM fun r => entryJson? r.entry
  return m.toJson

/-! ### Files of sections -/

/-- The number of a section with a code, and how many with this code have been numbered. -/
def number (all : List Section) (seen : SectionCode → Nat) (code : SectionCode) :
    Run (Option Nat × (SectionCode → Nat)) := do
  if 1 < all.countP (·.code = code) then
    let n ← add (seen code) 1
    return (some (← sub n 1), fun c => if c = code then n else seen c)
  else return (none, seen)

def jsonContents (p : Projection) : Run (Option Bytes) := do
  if p.isDecoded then return some (← projectionJson p).pretty else return none

def binaryContents (keepBinary : Bool) (s : Loaded) : Run (Option Bytes) := do
  let p := s.projection
  if p.isDecoded && !p.keepsBytes && !keepBinary then return none
  else return some (← payload s.subject)

/-- The files of a section. -/
def sectionPiece (keepBinary : Bool) (base : String) (s : Loaded) : Run SectionPiece := do
  return {
    subject := s.subject
    base := base
    json := ← jsonContents s.projection
    binary := ← binaryContents keepBinary s
    settings := match s.projection with
      | .debugIni ini => some (Bytes.ofString ini.text)
      | _ => none }

/-- The record of a section in the index. -/
def sectionRecord (piece : SectionPiece) (s : Loaded) : Run SectionRecord := do
  return {
    code := s.subject.code
    typeName := s.subject.name
    offset := s.subject.offset
    size := (← payload s.subject).length
    fullSize := s.subject.size
    place := s.place
    algorithm := s.subject.type.algorithm
    slot := s.subject.type.slot
    storedCrc := ← storedCrc s.subject
    trailer := ← trailer s.subject
    computedCrc := ← computedCrc s.subject
    stripped := s.subject.stripped
    encrypted := s.subject.encrypted
    deviceData := ← anyHas TocEntry.deviceDataField s.subject.entry
    fromPointer := s.subject.origin.isPointer
    keepsBytes := s.projection.keepsBytes
    fileName := piece.binaryFile.map Prod.fst
    jsonFile := piece.jsonFile.map Prod.fst
    entry := s.subject.entry }

/-- Counting one more, if there is one. -/
def count (one : Bool) (n : Nat) : Run Nat := if one then add n 1 else .ok n

/-- Counting the files of one more section. -/
def countFiles (piece : SectionPiece) (n : Extraction.Summary) : Run Extraction.Summary := do
  return {
    sections := ← add n.sections 1
    binaryFiles := ← count piece.binary.isSome n.binaryFiles
    jsonFiles := ← count piece.json.isSome n.jsonFiles
    settingsFiles := ← count piece.settings.isSome n.settingsFiles
    gapFiles := n.gapFiles
    failures := n.failures }

/-- The files of sections. -/
def filesOf (pieces : List SectionPiece) : Extraction.Summary := {
  sections := pieces.length
  binaryFiles := pieces.countP (·.binary.isSome)
  jsonFiles := pieces.countP (·.json.isSome)
  settingsFiles := pieces.countP (·.settings.isSome)
  gapFiles := 0
  failures := 0 }

/-- **How far the sections have been taken out.** -/
structure Progress where
  seen : SectionCode → Nat
  pieces : List SectionPiece
  records : List SectionRecord
  layout : List LayoutEntry
  files : Extraction.Summary

/-- Taking out one more section. -/
def takeSection (all : List Section) (keepBinary : Bool) (st : Progress) (s : Loaded) (index : Nat) :
    Run Progress := do
  let (number, seen) ← number all st.seen s.subject.code
  let piece ← sectionPiece keepBinary (SectionPiece.baseName s.subject number) s
  let record ← sectionRecord piece s
  let entry : LayoutEntry := .section index s.subject.name s.subject.offset (← last s.subject) s.subject.size
  return ⟨seen, st.pieces ++ [piece], st.records ++ [record], st.layout ++ [entry],
    ← countFiles piece st.files⟩

/-! ### Files of gaps -/

def gapContents (data : Bytes) (g : Gap) : Run Bytes := do
  match g.fill with
  | some b => return Bytes.ofString (GapFile.write (← gapSize g) b)
  | none => sliceBetween data g.first g.last

/-- **How far the gaps have been taken out.** -/
structure GapProgress where
  pieces : List GapPiece
  layout : List LayoutEntry
  count : Nat

/-- Taking out one more gap. -/
def takeGap (data : Bytes) (st : GapProgress) (g : Gap) (index : Nat) : Run GapProgress := do
  let name := GapPiece.nameOf index g data.length
  let contents ← gapContents data g
  let entry : LayoutEntry := .gap g.first g.last (← gapSize g) g.fill name
  return ⟨st.pieces ++ [⟨g, name, contents⟩], st.layout ++ [entry], ← add st.count 1⟩

/-! ### The whole image -/

/-- **What an image is taken apart into**: its files, the index among them as text, and their number. -/
structure Extracted where
  extraction : Extraction
  index : Bytes
  files : Extraction.Summary

def tocSummary (t : PlacedToc) : Run TocSummary := do
  return ⟨t.address, (← headerStatus t.toc.header) = .valid, t.toc.header.encode⟩

def rows (format : Format) (ps : Pointers) : Run (List PointerRow) :=
  ps.records.zipIdx.mapM fun x => do
    return ⟨x.2, format.role? x.2, x.1.value, x.1.crc, !(← pointerStatus x.1).isInvalid⟩

/-- **Taking an image apart.** -/
def extract [Algorithms] (p : Parsed) (keepBinary : Bool) : Run Extracted := do
  let i := p.image
  let pointers : PointersSummary :=
    ⟨← add i.base Pointers.offset, i.pointers.encode, ← rows i.format i.pointers⟩
  let itoc ← tocSummary i.itoc
  let dtoc ← p.dtoc.mapM tocSummary
  let all := p.sections.map (·.subject)
  let st ← p.sections.zipIdx.foldlM (fun st x => takeSection all (keepBinary || p.encrypted) st x.1 x.2)
    ⟨fun _ => 0, [], [], [], filesOf []⟩
  let gapSt ← (← gaps p).zipIdx.foldlM (fun st x => takeGap i.data st x.1 x.2) ⟨[], [], 0⟩
  let metadata : Metadata := {
    format := i.format
    image := ⟨i.data.length, Metadata.digestOf i.data⟩
    anchor := .found i.base
    pointers := pointers
    itoc := itoc
    dtoc := dtoc
    encrypted := p.encrypted
    sections := st.records
    layout := (st.layout ++ gapSt.layout).mergeSort fun a b => a.first ≤ b.first
    crcInfo := .standard
    boundaries := ⟨0, i.data.length, Image.sectorSize⟩
    diagnostics := p.found }
  return ⟨⟨st.pieces, gapSt.pieces, metadata⟩, (← indexJson metadata).pretty,
    { st.files with gapFiles := gapSt.count }⟩

end FlashImage.Machine
