import FlashImage.Files
import FlashImage.GapFile
import FlashImage.Json.Printer
import FlashImage.Metadata

/-!
# Splitting an image into files

An extraction keeps every section and every gap of an image in files of its own, and an index that says
how they fit together. A section whose JSON form says everything is kept as JSON alone, unless its
bytes are asked for as well; all others are kept as bytes. A uniform gap is kept as a description.

File names are made from the type and the place of a piece. Sections of one type are numbered, since
several of them can start at the same place.

## Parts

* `SectionPiece` and `GapPiece` — a section and a gap with their files;
* `Extraction` and `Image.extract`;
* `Extraction.Summary` — the number of files of each kind.
-/

namespace FlashImage

/-! ### Sections -/

/-- **A section and its files.** -/
structure SectionPiece where
  subject : Section
  /-- The name of the files, without what tells them apart. -/
  base : String
  /-- The JSON form, if the contents are projected. -/
  json : Option Bytes
  /-- The contents, if they are kept as bytes. -/
  binary : Option Bytes
  /-- The text of settings, for reading only. -/
  settings : Option Bytes

namespace SectionPiece

/-- The name of a section's files: its type, its number if there are several of the type, and its
place. -/
def baseName (s : Section) (number : Option Nat) : String :=
  match number with
  | some n => s!"{s.name}_{Text.decimal n}_0x{Text.hex 8 s.offset}"
  | none => s!"{s.name}_0x{Text.hex 8 s.offset}"

/-- **The number of a section** behind `earlier` ones among `all`: how many of its type come before
it, unless it is the only one of its type. -/
def numberAmong (all earlier : List Section) (s : Section) : Option Nat :=
  let ofType (t : Section) : Bool := t.code = s.code
  if 1 < all.countP ofType then some (earlier.countP ofType) else none

/-- **The files of a section.** Every projection can be written as JSON: it holds numbers, texts and bytes, and
no key that is not a text. So there is no section that has to be kept as bytes because its JSON form cannot be
written. -/
def ofSection [Algorithms] (keepBinary : Bool) (base : String) (s : Section) : SectionPiece :=
  let p := s.projection
  { subject := s
    base := base
    json := if p.isDecoded then some p.toJson.pretty else none
    binary := if p.isDecoded && !p.keepsBytes && !keepBinary then none else some s.payload
    settings := match p with
      | .debugIni ini => some (Bytes.ofString ini.text)
      | _ => none }

/-- The file with the JSON form. -/
def jsonFile (p : SectionPiece) : Option (String × Bytes) := p.json.map (p.base ++ ".json", ·)

/-- The file with the contents. -/
def binaryFile (p : SectionPiece) : Option (String × Bytes) := p.binary.map (p.base ++ ".bin", ·)

/-- The file with the settings. -/
def settingsFile (p : SectionPiece) : Option (String × Bytes) := p.settings.map (p.base ++ ".ini", ·)

/-- All files of a section. -/
def files (p : SectionPiece) : List (String × Bytes) :=
  p.jsonFile.toList ++ p.binaryFile.toList ++ p.settingsFile.toList

/-- The record of a section in the index. -/
def toRecord [Algorithms] (p : SectionPiece) : SectionRecord :=
  .ofSection p.subject (p.binaryFile.map Prod.fst) (p.jsonFile.map Prod.fst)

/-- The section with the given number among the records, as a piece of the layout. -/
def layoutEntry (p : SectionPiece) (index : Nat) : LayoutEntry :=
  let s := p.subject
  .section index s.name s.offset s.last s.size

end SectionPiece

/-! ### Gaps -/

/-- **A gap and its file.** -/
structure GapPiece where
  subject : Gap
  fileName : String
  contents : Bytes

namespace GapPiece

/-- The directory of the files of gaps. -/
def directory : String := "gaps"

/-- **The name of a gap's file**: its number, its range, and what kind of file it is. -/
def nameOf (number : Nat) (g : Gap) (imageEnd : Nat) : String :=
  let last := if g.last = imageEnd then "EOF" else s!"0x{Text.hex 8 g.last}"
  let kind := if g.fill.isSome then "meta" else "bin"
  s!"{directory}/gap_{Text.decimalPad 3 number}_0x{Text.hex 8 g.first}_{last}.{kind}"

/-- **The file of a gap**: a description of a uniform one, and the bytes of any other. -/
def ofGap (data : Bytes) (number : Nat) (g : Gap) : GapPiece := {
  subject := g
  fileName := nameOf number g data.length
  contents := match g.fill with
    | some b => Bytes.ofString (GapFile.write g.size b)
    | none => data.slice g.first g.size }

/-- A gap as a piece of the layout. -/
def layoutEntry (p : GapPiece) : LayoutEntry :=
  let g := p.subject
  .gap g.first g.last g.size g.fill p.fileName

end GapPiece

/-! ### Extractions -/

/-- **An image in files.** -/
structure Extraction where
  sections : List SectionPiece
  gaps : List GapPiece
  metadata : Metadata

namespace Extraction

/-- The sections with their files. -/
def sectionPieces [Algorithms] (keepBinary : Bool) (sections : List Section) :
    List SectionPiece :=
  sections.zipIdx.map fun (s, i) =>
    let number := SectionPiece.numberAmong sections (sections.take i) s
    .ofSection keepBinary (SectionPiece.baseName s number) s

/-- The gaps with their files. -/
def gapPieces (data : Bytes) (gaps : List Gap) : List GapPiece :=
  gaps.zipIdx.map fun (g, i) => .ofGap data i g

/-- **The layout**: all pieces by their place, sections in front of gaps. -/
def layoutOf (sections : List SectionPiece) (gaps : List GapPiece) : List LayoutEntry :=
  let entries := (sections.zipIdx.map fun (p, i) => SectionPiece.layoutEntry p i)
    ++ gaps.map GapPiece.layoutEntry
  entries.mergeSort fun a b => a.first ≤ b.first

/-- The files of an extraction, in the order in which they are written. -/
def written (x : Extraction) : List (String × Bytes) :=
  x.sections.flatMap SectionPiece.files ++ x.gaps.map (fun p => (p.fileName, p.contents))
    ++ [(Metadata.fileName, x.metadata.toJson.pretty)]

/-- **The files of an extraction.** -/
def files (x : Extraction) : Files := Files.writeAll x.written

end Extraction

/-- **Splitting an image into files.** The sections of an encrypted image are always kept as bytes. -/
def Image.extract [Algorithms] (i : Image) (keepBinary : Bool) : Extraction :=
  let sections := Extraction.sectionPieces (keepBinary || i.encrypted) i.sections
  let gaps := Extraction.gapPieces i.data i.gaps
  { sections := sections
    gaps := gaps
    metadata := .ofImage i (sections.map SectionPiece.toRecord) (Extraction.layoutOf sections gaps) }

/-! ### Counts -/

/-- **How many files of each kind** an extraction has. -/
structure Extraction.Summary where
  sections : Nat
  binaryFiles : Nat
  jsonFiles : Nat
  settingsFiles : Nat
  gapFiles : Nat
  failures : Nat
  deriving DecidableEq

namespace Extraction

/-- **The number of files of each kind.** What is counted as a failure is a projection or an index that cannot
be written as JSON. All of them can (`SectionPiece.ofSection`), so there is none. -/
def summary (x : Extraction) : Summary := {
  sections := x.sections.length
  binaryFiles := x.sections.countP fun p => p.binary.isSome
  jsonFiles := x.sections.countP fun p => p.json.isSome
  settingsFiles := x.sections.countP fun p => p.settings.isSome
  gapFiles := x.gaps.length
  failures := 0 }

def Summary.toJson (s : Summary) : Json :=
  .record [("sections", .nat s.sections), ("bin_files", .nat s.binaryFiles),
    ("json_files", .nat s.jsonFiles), ("ini_files", .nat s.settingsFiles),
    ("gap_files", .nat s.gapFiles), ("failures", .nat s.failures)]

end Extraction

end FlashImage
