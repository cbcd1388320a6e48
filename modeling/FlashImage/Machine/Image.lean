import FlashImage.Image
import FlashImage.Machine.Sections

/-!
# Reading an image, step by step

The anchors of an image are looked for, and an image that has them is surveyed (`parse`): the sections that
it announces are collected one by one, with what is wrong with them (`Layout`), then sorted and compared with
each other. What is announced can lie anywhere; a range is tested against the image before there is a section.
-/

namespace FlashImage.Machine

/-! ### Anchors -/

def hasPattern (data : Bytes) (offset : Nat) : Run Bool := do
  return part? data offset (← add offset Magic.pattern.length) = some Magic.pattern

/-- The first of some offsets at which the pattern stands. -/
def findMagic (data : Bytes) : List Nat → Run (Option Nat)
  | [] => return none
  | offset :: rest => do
    if ← hasPattern data offset then return some offset else findMagic data rest

def readFormat (data : Bytes) (base : Nat) : Step ParseError Format := do
  let offset ← add base Image.formatOffset
  let b ← (readU8 data offset).adapt fun _ => .truncated "image format" offset data.length
  return (Format.ofByte? b).getD .fs4

def readPointers (data : Bytes) (base : Nat) : Step ParseError Pointers := do
  let offset ← add base Pointers.offset
  let read : Step AccessError Pointers := do settled (Pointers.decode (← slice data offset Pointers.size))
  read.adapt fun _ => .truncated "hardware pointers" offset data.length

/-- What the checks of pointers report. -/
def pointerFindings (ps : Pointers) : Run (List Diagnostic) := do
  return (← badRecords ps).filterMap fun
    | (index, .invalid stored computed) => some (.badPointerCrc index stored computed)
    | _ => none

def readItoc (data : Bytes) (base rel : Nat) : Step ParseError (PlacedToc × List Diagnostic) := do
  let address ← add base rel
  let (toc, found) ← (readToc data address).adapt ParseError.toc
  if toc.kind = .itoc then return (⟨address, toc⟩, found)
  else throw (.toc (.badSignature address (← field TocHeader.signatureField toc.header.record.dwords)))

/-- **The anchors of an image**, with what is wrong with its pointers and its table. -/
def readAnchors (data : Bytes) : Step ParseError (Image × List Diagnostic) := do
  match ← findMagic data Magic.searchOffsets with
  | none => throw .notFirmware
  | some base =>
    let format ← readFormat data base
    let pointers ← readPointers data base
    let found ← pointerFindings pointers
    match pointers.address? format .itoc with
    | none => throw (.missingPointer .itoc)
    | some rel =>
      let (itoc, more) ← readItoc data base rel
      return (⟨data, format, base, pointers, itoc⟩, found ++ more)

/-- The place of the device's table. -/
def dtocAddress (i : Image) : Run (Option Nat) := do
  match i.pointers.address? i.format .dtoc with
  | some rel => return some (← add i.base rel)
  | none =>
    return if Image.sectorSize ≤ i.data.length then some (i.data.length - Image.sectorSize) else none

/-- The table of the device, with what is wrong with it. -/
def readDtoc (i : Image) : Run (Option PlacedToc × List Diagnostic) := do
  let pointed := (i.pointers.address? i.format .dtoc).isSome
  match ← dtocAddress i with
  | none => return (none, [])
  | some address =>
    match ← (readToc i.data address).run with
    | .ok (toc, found) =>
      if toc.kind = .dtoc then return (some ⟨address, toc⟩, found)
      else if pointed then
        let signature ← field TocHeader.signatureField toc.header.record.dwords
        return (none, [Image.badDtoc address signature])
      else return (none, [])
    | .error e =>
      if !pointed then return (none, [])
      else match e with
        | .badSignature place found => return (none, [Image.badDtoc place found])
        | .truncated .. => return (none, [.decodeFailure SectionCode.dtoc.name address e.message])

/-! ### Collecting sections -/

/-- **The sections collected so far**, with what was found to be wrong so far. -/
structure Layout where
  sections : List Loaded
  found : List Diagnostic

/-- Collecting the section in a range, if the image holds all of it. -/
def collect [Algorithms] (data : Bytes) (encrypted : Bool) (code : SectionCode) (offset len : Nat)
    (origin : Origin) (entry : Option TocEntry) (l : Layout) : Run Layout := do
  if len = 0 then return l
  else match (checkedAdd offset len).bind (part? data offset) with
    | none => return ⟨l.sections, l.found ++ [.truncated code.name offset len data.length]⟩
    | some bytes =>
      let (s, found) ← load ⟨code, offset, bytes, origin, entry, encrypted⟩
      return ⟨l.sections ++ [s], l.found ++ found⟩

def collectTable [Algorithms] (data : Bytes) (encrypted : Bool) (l : Layout) (t : PlacedToc) :
    Run Layout := do
  collect data encrypted (Image.tocCode t.toc.kind) t.address (← tocSize t.toc) (.tocHeader t.toc.kind) none l

/-- The length of the structure that a pointer leads to, told by the structure itself. -/
def pointedLength (role : Role) (bs : Bytes) : Run (Option Nat) :=
  match role with
  | .boot2 => statedLength 4 4 bs
  | .hashesTable => statedLength 8 1 bs
  | _ => return some ToolsArea.size

def collectPointed [Algorithms] (i : Image) (encrypted : Bool) (l : Layout) (role : Role)
    (code : SectionCode) : Run Layout := do
  match i.format.indexOf? role, i.pointers.address? i.format role with
  | some index, some rel =>
    let offset ← add i.base rel
    match ← pointedLength role ((part? i.data offset i.data.length).getD []) with
    | some len => collect i.data encrypted code offset len (.pointer index) none l
    | none =>
      return ⟨l.sections, l.found ++ [.truncated code.name offset Placement.minLength i.data.length]⟩
  | _, _ => return l

def collectEntry [Algorithms] (i : Image) (encrypted : Bool) (kind : TocKind) (l : Layout) (e : TocEntry)
    (index : Nat) : Run Layout := do
  let code := (← entryType e).toUInt16
  let offset ← add i.base (← entryAddress e)
  collect i.data encrypted code offset (← entrySize e) (.toc kind index) (some e) l

def collectEntries [Algorithms] (i : Image) (encrypted : Bool) (l : Layout) (t : PlacedToc) : Run Layout :=
  t.toc.entries.zipIdx.foldlM (fun l x => collectEntry i encrypted t.toc.kind l x.1 x.2) l

/-! ### Sections in order -/

def sorted (sections : List Loaded) : Run (List Loaded) := do
  let keyed ← sections.mapM fun s => do return (s, s.subject.offset, ← last s.subject)
  return (keyed.mergeSort fun a b => a.2.1 < b.2.1 || (a.2.1 = b.2.1 && a.2.2 ≤ b.2.2)).map Prod.fst

/-- The overlap of a section with one in front of it. -/
def overlap (p s : Section) : Run (List Diagnostic) := do
  if s.offset < (← last p) then
    return [.sectionOverlap p.name (p.offset, ← last p) s.name (s.offset, ← last s)]
  else return []

/-- The overlaps among sections in order, after sections of which `furthest` ends last. -/
def overlapsFrom (furthest : Option Section) : List Section → Run (List Diagnostic)
  | [] => return []
  | s :: rest =>
    match furthest with
    | none => overlapsFrom (some s) rest
    | some p => do
      let found ← overlap p s
      let further := if (← last p) < (← last s) then s else p
      return found ++ (← overlapsFrom (some further) rest)

/-- The failed check of a section that does not report on its own records. -/
def crcFindings (s : Loaded) : List Diagnostic :=
  if s.subject.code = SectionCode.pointers ∨ s.subject.code = SectionCode.itoc
      ∨ s.subject.code = SectionCode.dtoc then []
  else match s.status with
    | .invalid stored computed => [.badSectionCrc s.subject.name s.subject.offset stored computed]
    | _ => []

/-! ### Reading -/

/-- **An image as it is kept**, with everything that was found out about it. -/
structure Parsed where
  image : Image
  dtoc : Option PlacedToc
  encrypted : Bool
  sections : List Loaded
  found : List Diagnostic
  deriving DecidableEq

/-- All sections, as they are found. -/
def collectAll [Algorithms] (i : Image) (dtoc : Option PlacedToc) (encrypted : Bool) (l : Layout) :
    Run Layout := do
  let offset ← add i.base Pointers.offset
  let l ← collect i.data encrypted SectionCode.pointers offset Pointers.size .pointerArray none l
  let l ← (i.itoc :: dtoc.toList).foldlM (collectTable i.data encrypted) l
  let l ← Image.pointedTo.foldlM (fun l r => collectPointed i encrypted l r.1 r.2.1) l
  (i.itoc :: dtoc.toList).foldlM (collectEntries i encrypted) l

/-- What there is to say about an image, given what its anchors have to say. -/
def survey [Algorithms] (i : Image) (found : List Diagnostic) : Run Parsed := do
  let (dtoc, more) ← readDtoc i
  let encrypted ← i.itoc.toc.entries.anyM (entryHas TocEntry.encryptedField)
  let l ← collectAll i dtoc encrypted ⟨[], found ++ more⟩
  let sections ← sorted l.sections
  let overlapping ← overlapsFrom none (sections.map (·.subject))
  return ⟨i, dtoc, encrypted, sections, l.found ++ overlapping ++ sections.flatMap crcFindings⟩

/-- **Reading an image**, with everything that is found out about it. -/
def parse [Algorithms] (data : Bytes) : Step ParseError Parsed := do
  let (i, found) ← readAnchors data
  survey i found

end FlashImage.Machine
