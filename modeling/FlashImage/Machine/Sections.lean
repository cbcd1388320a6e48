import FlashImage.Machine.Encoders
import FlashImage.Section

/-!
# Sections, step by step

When a section is made, the place of its CRC is found, its CRC is verified and its contents are projected, and
all of this is kept with it (`Loaded`). From then on its contents, its CRCs and its end can be asked for.
-/

namespace FlashImage.Machine

/-! ### Parts of a section -/

/-- The end of a section in the image. -/
def last (s : Section) : Run Nat := add s.offset s.data.length

def payload (s : Section) : Run Bytes := do
  if s.stripped then sliceTo s.data (← sub s.data.length Section.trailerSize) else return s.data

def trailer (s : Section) : Run (Option UInt32) := do
  if s.stripped then
    let dword ← (readU32 s.data (← sub s.data.length Section.trailerSize)).run
    return dword.toOption
  else return none

/-- The offset of the last dword, if there is one. -/
def trailerStart? (s : Section) : Option Nat :=
  if Section.trailerSize ≤ s.data.length then some (s.data.length - Section.trailerSize) else none

def storedCrc (s : Section) : Run (Option UInt16) := do
  match s.place with
  | .none => return none
  | .entry =>
    match s.entry with
    | some e => return some (← field TocEntry.sectionCrcField e.record.dwords).toUInt16
    | none => return none
  | .trailer =>
    match trailerStart? s with
    | some first =>
      let dword ← (readU32 s.data first).run
      return dword.toOption.map s.type.slot.get
    | none => return none

def computedCrc (s : Section) : Run (Option UInt16) := do
  match s.place with
  | .none => return none
  | .entry => return some (← software s.data)
  | .trailer =>
    match trailerStart? s with
    | some last => return some (← software (← sliceTo s.data last))
    | none => return none

/-! ### Making a section -/

/-- Whether there is an entry, and one with a field set. -/
def anyHas (f : BitField) (entry : Option TocEntry) : Run Bool :=
  match entry with
  | some e => entryHas f e
  | none => .ok false

/-- **Where the CRC of a section is stored**, as it is found out when the section is made. -/
def place (s : Section) : Run CrcPlace := do
  let noCrc ← anyHas TocEntry.noCrcField s.entry
  return if noCrc || s.misfits then .none
  else match s.type.place with
    | .none => .none
    | .entry => if s.entry.isSome then .entry else .none
    | .trailer => if s.data.length < Section.trailerSize then .none else .trailer

def verify (s : Section) : Run CrcStatus := do
  match s.type.family with
  | .pointers =>
    match Pointers.decode s.data with
    | .ok ps => pointersStatus ps
    | .error _ => return .skipped
  | .toc =>
    match ← (decodeToc s.data).run with
    | .ok t => tocStatus t
    | .error _ => return .skipped
  | _ =>
    if s.place = .none then return .notApplicable
    else if s.encrypted then return .skipped
    else
      match ← storedCrc s, ← computedCrc s with
      | some stored, some computed => return .check stored computed
      | _, _ => return .skipped

def project [Algorithms] (s : Section) : Step DecodeError Projection := do
  if s.misfits then throw (.badLength s.data.length)
  else
    let p ← decode s.type.family (← payload s)
    if p.keepsBytes then return p
    else
      let written ← encode p
      if written = (← payload s) then return p else throw .notBitExact

/-- **A section as it is kept**, with everything that was found out about it. -/
structure Loaded where
  subject : Section
  place : CrcPlace
  status : CrcStatus
  projection : Projection
  deriving DecidableEq

/-- **Making a section**, with what is wrong with it. -/
def load [Algorithms] (s : Section) : Run (Loaded × List Diagnostic) := do
  let place ← place s
  let status ← verify s
  let unknown := s.code.type?.isNone
  let report := if unknown then [.unknownSectionType s.code s.offset] else []
  let form (p : Projection) : Projection := if unknown then .raw "unknown section type" else p
  if s.encrypted then return (⟨s, place, status, form (.raw "encrypted")⟩, report)
  else
    match ← (project s).run with
    | .ok p => return (⟨s, place, status, form p⟩, report)
    | .error e =>
      return (⟨s, place, status, form (.raw e.message)⟩,
        report ++ [.decodeFailure s.name s.offset e.message])

end FlashImage.Machine
