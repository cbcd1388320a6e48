import FlashImage.Diagnostic
import FlashImage.Section.Projection

/-!
# Sections

A section is a range of bytes of an image together with what led to it. All that is said about a
section follows from that: where its CRC is (`Section.place`), which of its bytes are its contents
(`Section.payload`), whether the CRC holds (`Section.status`), in which form the contents are shown
(`Section.projection`), and what is wrong with them (`Section.findings`).

The contents of an encrypted image cannot be checked or shown, so its sections are kept whole. The
pointer array and the tables are never encrypted, and report on their own records.

## Parts

* `Origin` — what led to a section;
* `Section` — the section, its checks and its projection.
-/

namespace FlashImage

/-! ### Origins -/

/-- **What led to a section.** -/
inductive Origin where
  /-- The section is the pointer array itself. -/
  | pointerArray
  /-- The pointer at a place in the array. -/
  | pointer (index : Nat)
  /-- An entry of a table. -/
  | toc (kind : TocKind) (index : Nat)
  /-- The section is a table itself. -/
  | tocHeader (kind : TocKind)
  deriving DecidableEq

namespace Origin

def toJson : Origin → Json
  | pointerArray => .text "HwPointers"
  | pointer index => .variant "HwPointer" (.record [("index", .nat index)])
  | toc kind index => .variant "Toc" (.record [("kind", kind.toJson), ("index", .nat index)])
  | tocHeader kind => .variant "TocHeader" (.record [("kind", kind.toJson)])

def ofJson? (j : Json) : Option Origin := do
  match ← j.asVariant? with
  | ("HwPointers", payload) => if Json.isBare payload then some pointerArray else none
  | ("HwPointer", some payload) =>
    let [index] ← payload.fields? ["index"] | none
    return pointer (← Json.given? Json.asSize? index)
  | ("Toc", some payload) =>
    let [kind, index] ← payload.fields? ["kind", "index"] | none
    return toc (← Json.given? TocKind.ofJson? kind) (← Json.given? Json.asSize? index)
  | ("TocHeader", some payload) =>
    let [kind] ← payload.fields? ["kind"] | none
    return tocHeader (← Json.given? TocKind.ofJson? kind)
  | _ => none

/-- Whether a single pointer led to the section. -/
def isPointer : Origin → Bool
  | pointer _ => true
  | _ => false

end Origin

/-! ### Sections -/

/-- **A section** of an image. -/
structure Section where
  code : SectionCode
  /-- The place of the section in the image. -/
  offset : Nat
  /-- All bytes of the section. -/
  data : Bytes
  origin : Origin
  /-- The table entry that led to the section. -/
  entry : Option TocEntry
  /-- Whether the image is an encrypted one. -/
  encryptedImage : Bool
  deriving DecidableEq

namespace Section

/-- The name of a section's type. -/
def name (s : Section) : String := s.code.name

/-- The number of bytes of a section. -/
def size (s : Section) : Nat := s.data.length

/-- The end of a section in the image. -/
def last (s : Section) : Nat := s.offset + s.data.length

/-- **The type of a section.** One with an unknown code is opaque and is checked through its entry. -/
def type (s : Section) : SectionType :=
  s.code.type?.getD (.image s.code.name .entry .generic)

/-! ### Checks -/

/-- The record of a device has its CRC at a fixed offset, so a section of another length can neither
be checked nor projected. -/
def misfits (s : Section) : Bool :=
  s.type.family = .deviceInfo && s.data.length ≠ DeviceInfo.sectionSize

/-- The number of bytes of a trailing CRC dword. -/
def trailerSize : Nat := 4

/-- **Where the CRC of a section is stored**: where its type says, unless the entry says that there is
none, or the place the type names is not there. -/
def place (s : Section) : CrcPlace :=
  if s.entry.any TocEntry.noCrc || s.misfits then .none
  else match s.type.place with
    | .none => .none
    -- a section that a pointer led to has no entry to look into
    | .entry => if s.entry.isSome then .entry else .none
    | .trailer => if s.data.length < trailerSize then .none else .trailer

/-- Whether a section reports on its own records. -/
def selfChecked (s : Section) : Bool :=
  match s.type.family with
  | .pointers | .toc => true
  | _ => false

/-- Whether the contents of a section are encrypted. -/
def encrypted (s : Section) : Bool := s.encryptedImage && !s.selfChecked

/-- **Whether the last dword of a section is split off** as its CRC. -/
def stripped (s : Section) : Bool := s.place = .trailer && !s.encrypted

/-- **The contents of a section**: everything but a CRC dword that is split off. -/
def payload (s : Section) : Bytes :=
  if s.stripped then s.data.take (s.data.length - trailerSize) else s.data

/-- The CRC dword that is split off. -/
def trailer (s : Section) : Option UInt32 :=
  if s.stripped then some (s.data.u32At (s.data.length - trailerSize)) else none

/-- The CRC that is stored, wherever it is. -/
def storedCrc (s : Section) : Option UInt16 :=
  match s.place with
  | .none => none
  | .entry => s.entry.map TocEntry.sectionCrc
  | .trailer => some (s.type.slot.get (s.data.u32At (s.data.length - trailerSize)))

/-- The CRC of the bytes that are covered. -/
def computedCrc (s : Section) : Option UInt16 :=
  match s.place with
  | .none => none
  | .entry => some (Crc.software s.data)
  | .trailer => some (Crc.software (s.data.take (s.data.length - trailerSize)))

/-- **The outcome of checking a section.** -/
def status (s : Section) : CrcStatus :=
  match s.type.family with
  | .pointers =>
    match Pointers.decode s.data with
    | .ok p => p.status
    | .error _ => .skipped
  | .toc =>
    match Toc.decode s.data with
    | .ok t => t.status
    | .error _ => .skipped
  | _ =>
    match s.storedCrc, s.computedCrc with
    | some stored, some computed => if s.encrypted then .skipped else .check stored computed
    | _, _ => .notApplicable

/-! ### Contents -/

/-- **The projection of the contents**, or the reason that there is none. A projection that is written
back without the bytes beside it has to give the very same bytes. -/
def project [Algorithms] (s : Section) : Except DecodeError Projection :=
  if s.misfits then .error (.badLength s.data.length)
  else do
    let p ← Projection.decode s.type.family s.payload
    -- these bytes are kept beside the projection, so nothing can be lost
    if p.keepsBytes then return p
    let bs ← p.encode.mapError .access
    if bs = s.payload then return p else .error .notBitExact

/-- **The form in which a section is shown.** -/
def projection [Algorithms] (s : Section) : Projection :=
  if s.code.type?.isNone then .raw "unknown section type"
  else if s.encrypted then .raw "encrypted"
  else match s.project with
    | .ok p => p
    | .error e => .raw e.message

/-- **What is wrong with a section**, apart from its CRC. -/
def findings [Algorithms] (s : Section) : List Diagnostic :=
  (if s.code.type?.isNone then [.unknownSectionType s.code s.offset] else []) ++
  (if s.encrypted then [] else match s.project with
    | .ok _ => []
    | .error e => [.decodeFailure s.name s.offset e.message])

/-- Whether an entry marks a section as data of the device. -/
def deviceData (s : Section) : Bool := s.entry.any TocEntry.deviceData

/-- A section as text. -/
def text (s : Section) : String :=
  s!"{Text.column 24 s.name} @ {Text.hex 8 s.offset}:{Text.hex 8 s.last} " ++
    s!"(0x{Text.hex 6 s.size})  {Text.column 13 s.place.name}  {s.status.message}"

end Section

end FlashImage
