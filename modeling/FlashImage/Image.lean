import FlashImage.Gap
import FlashImage.Image.Error
import FlashImage.Image.Placement
import FlashImage.Magic

/-!
# Images

An `Image` is the bytes of a flash image together with its anchors: where it starts, its pointer array
and its table of contents. `Image.parse` finds them. From there on nothing fails: the table of the
device, the sections, the gaps between them and the findings are all functions of an image.

## Parts

* `PlacedToc` — a table and its place;
* `Image` and `Image.parse`;
* the table of the device, and the announced sections in the order in which they are found;
* sections, gaps and findings.
-/

namespace FlashImage

/-- **A table of contents and its place** in an image. -/
structure PlacedToc where
  address : Nat
  toc : Toc
  deriving DecidableEq

/-- **An image**, by its bytes and its anchors. -/
structure Image where
  data : Bytes
  format : Format
  /-- Where the image starts. Addresses are relative to it. -/
  base : Nat
  pointers : Pointers
  itoc : PlacedToc
  deriving DecidableEq

namespace Image

/-! ### Anchors -/

/-- The offset of the format byte from the start of an image. -/
def formatOffset : Nat := 0x10

/-- The size of the parts in which flash is erased. -/
def sectorSize : Nat := 0x1000

/-- The format of the image that starts at `base`; an unknown one counts as the older format. -/
def readFormat (data : Bytes) (base : Nat) : Except ParseError Format :=
  match data.readU8 (base + formatOffset) with
  | .ok b => .ok ((Format.ofByte? b).getD .fs4)
  | .error _ => .error (.truncated "image format" (base + formatOffset) data.length)

/-- The pointer array of the image that starts at `base`. -/
def readPointers (data : Bytes) (base : Nat) : Except ParseError Pointers :=
  match Pointers.decode (data.drop (base + Pointers.offset)) with
  | .ok ps => .ok ps
  | .error _ => .error (.truncated "hardware pointers" (base + Pointers.offset) data.length)

/-- The image's table of contents, which has to be of the right kind. -/
def readItoc (data : Bytes) (address : Nat) : Except ParseError PlacedToc := do
  let (toc, _) ← (Toc.read data address).mapError .toc
  if toc.kind = .itoc then return ⟨address, toc⟩
  else .error (.toc (.badSignature address toc.header.signature))

/-- **Reading an image.** -/
def parse (data : Bytes) : Except ParseError Image :=
  match Magic.find? data with
  | none => .error .notFirmware
  | some base => do
    let format ← readFormat data base
    let pointers ← readPointers data base
    match pointers.address? format .itoc with
    | none => .error (.missingPointer .itoc)
    | some address => return ⟨data, format, base, pointers, ← readItoc data (base + address)⟩

/-- The offset of the pointer array. -/
def pointersOffset (i : Image) : Nat := i.base + Pointers.offset

/-! ### The table of the device -/

/-- **The place of the device's table**: where its pointer leads, or else the last sector. -/
def dtocAddress? (i : Image) : Option Nat :=
  match i.pointers.address? i.format .dtoc with
  | some address => some (i.base + address)
  | none => if sectorSize ≤ i.data.length then some (i.data.length - sectorSize) else none

/-- What stands at the place of the device's table, with everything that is wrong with it. -/
def readDtoc (i : Image) : Option (Nat × Except TocError (Toc × List Diagnostic)) :=
  i.dtocAddress?.map fun address => (address, Toc.read i.data address)

/-- **The table of the device**, if there is one. -/
def dtoc (i : Image) : Option PlacedToc :=
  match i.readDtoc with
  | some (address, .ok (toc, _)) => if toc.kind = .dtoc then some ⟨address, toc⟩ else none
  | _ => none

/-- The finding that a pointer leads to something that is not the device's table. -/
def badDtoc (address : Nat) (found : UInt32) : Diagnostic :=
  .badTocSignature .dtoc address TocKind.dtoc.signature found

/-- **What is wrong with the table of the device.** Only a pointer that leads elsewhere is wrong; a
last sector without a table is not. -/
def dtocFindings (i : Image) : List Diagnostic :=
  match i.readDtoc with
  | none => []
  | some (address, result) =>
    let pointed := (i.pointers.address? i.format .dtoc).isSome
    match result with
    | .ok (toc, findings) =>
      if toc.kind = .dtoc then findings
      -- a table, but not the device's
      else if pointed then [badDtoc address toc.header.signature]
      else []
    | .error e =>
      if !pointed then []
      -- no table at all, or no room for one
      else match e with
        | .badSignature address found => [badDtoc address found]
        | .truncated .. => [.decodeFailure SectionCode.dtoc.name address e.message]

/-! ### Announced sections -/

/-- **Whether the image is encrypted**: some entry of its table says so. -/
def encrypted (i : Image) : Bool := i.itoc.toc.entries.any TocEntry.encrypted

/-- The code of a table of a kind. -/
def tocCode : TocKind → SectionCode
  | .itoc => SectionCode.itoc
  | .dtoc => SectionCode.dtoc

/-- A table itself. -/
def tableOf (t : PlacedToc) : Placement :=
  ⟨tocCode t.toc.kind, t.address, some t.toc.size, .tocHeader t.toc.kind, none⟩

/-- The sections that the entries of a table announce. -/
def entriesOf (base : Nat) (t : PlacedToc) : List Placement :=
  t.toc.entries.zipIdx.map fun (e, index) =>
    ⟨e.code, base + e.address, some e.size, .toc t.toc.kind index, some e⟩

/-- The structures that have a pointer of their own, each with what tells its length. -/
def pointedTo : List (Role × SectionCode × (Bytes → Option Nat)) :=
  [(.boot2, SectionCode.boot2, Boot2.sectionLength?),
   (.toolsArea, SectionCode.toolsArea, fun _ => some ToolsArea.size),
   (.hashesTable, SectionCode.hashesTable, HashesTable.sectionLength?)]

/-- The structures that pointers lead to. -/
def pointerPlacements (i : Image) : List Placement :=
  pointedTo.filterMap fun (role, code, length?) => do
    let index ← i.format.indexOf? role
    let address ← i.pointers.address? i.format role
    let offset := i.base + address
    return ⟨code, offset, length? (i.data.drop offset), .pointer index, none⟩

/-- **All announced sections**, in the order in which they are found. -/
def placements (i : Image) : List Placement :=
  let dtoc := i.dtoc.toList
  ⟨SectionCode.pointers, i.pointersOffset, some Pointers.size, .pointerArray, none⟩
    :: tableOf i.itoc :: dtoc.map tableOf
    ++ i.pointerPlacements
    ++ entriesOf i.base i.itoc ++ dtoc.flatMap (entriesOf i.base)

/-! ### Sections and gaps -/

/-- Whether one section stands before another: it starts earlier, or ends no later. -/
def inOrder (s t : Section) : Bool :=
  s.offset < t.offset || (s.offset = t.offset && s.last ≤ t.last)

/-- **The sections of an image**, by place. -/
def sections (i : Image) : List Section :=
  let encrypted := i.encrypted
  (i.placements.filterMap (·.section? i.data encrypted)).mergeSort inOrder

/-- The sections of a type, by place. -/
def sectionsOfType (i : Image) (code : SectionCode) : List Section :=
  i.sections.filter (·.code = code)

/-- The gaps from an offset on, around sections in order of place. -/
def gapsFrom (data : Bytes) (pos : Nat) : List Section → List Gap
  | [] => if pos < data.length then [.between data pos data.length] else []
  | s :: rest =>
    (if pos < s.offset then [Gap.between data pos s.offset] else []) ++
      gapsFrom data (max pos s.last) rest

/-- **The gaps of an image**, by place. -/
def gaps (i : Image) : List Gap := gapsFrom i.data 0 i.sections

/-! ### Findings -/

/-- What is wrong with the pointer array. -/
def pointerFindings (i : Image) : List Diagnostic :=
  i.pointers.badRecords.filterMap fun
    | (index, .invalid stored computed) => some (.badPointerCrc index stored computed)
    | _ => none

/-- What is wrong with the image's table. -/
def itocFindings (i : Image) : List Diagnostic :=
  i.itoc.toc.findings i.itoc.address ++ i.itoc.toc.endFindings i.itoc.address i.data.length

/-- The overlaps among sections in order of place, after sections of which `furthest` ends last: each
section that starts before that end overlaps it. -/
def overlapsFrom (furthest : Option Section) : List Section → List Diagnostic
  | [] => []
  | s :: rest =>
    match furthest with
    | none => overlapsFrom (some s) rest
    | some p =>
      (if s.offset < p.last then
        [.sectionOverlap p.name (p.offset, p.last) s.name (s.offset, s.last)] else []) ++
      overlapsFrom (some (if p.last < s.last then s else p)) rest

/-- The overlaps among sections in order of place. -/
def overlaps (sections : List Section) : List Diagnostic := overlapsFrom none sections

/-- The failed check of a section that does not report on its own records. -/
def crcFindings (s : Section) : List Diagnostic :=
  if s.selfChecked then []
  else match s.status with
    | .invalid stored computed => [.badSectionCrc s.name s.offset stored computed]
    | _ => []

/-- **Everything that is wrong with an image**: its pointers, its tables, the announced sections as they
are found, then overlaps and failed checks by place. -/
def diagnostics [Algorithms] (i : Image) : List Diagnostic :=
  let encrypted := i.encrypted
  let sections := i.sections
  i.pointerFindings ++ i.itocFindings ++ i.dtocFindings
    ++ i.placements.flatMap (·.findings i.data encrypted)
    ++ overlaps sections ++ sections.flatMap crcFindings

/-- Whether any check in an image failed. -/
def hasCrcErrors [Algorithms] (i : Image) : Bool := i.diagnostics.any Diagnostic.isCrcError

end Image

end FlashImage
