import FlashImage.Checksum.Crc
import FlashImage.Json.Decode

/-!
# How a section is checked

A section may carry a CRC in its table entry, in a dword of its own at the end, or not at all. This
file holds the words for that: the place of the CRC (`CrcPlace`), the algorithm that computes it
(`CrcAlgorithm`), the half of a trailing dword that stores it (`CrcSlot`), and the outcome of a check
(`CrcStatus`). Each has the name it goes by in reports and extracted files.
-/

namespace FlashImage

/-! ### Place -/

/-- **Where the expected CRC of a section is stored.** -/
inductive CrcPlace where
  /-- Nowhere; there is nothing to verify. -/
  | none
  /-- In the table entry of the section, over the whole section. -/
  | entry
  /-- In the last dword of the section, over everything before it. -/
  | trailer
  deriving DecidableEq

namespace CrcPlace

/-- The name of a place. -/
def name : CrcPlace → String
  | none => "NONE"
  | entry => "IN_ITOC_ENTRY"
  | trailer => "IN_SECTION"

def all : List CrcPlace := [none, entry, trailer]

def toJson (p : CrcPlace) : Json := .text p.name

end CrcPlace

/-! ### Algorithm -/

/-- **The algorithm that computes a CRC.** -/
inductive CrcAlgorithm where
  | software
  | hardware
  deriving DecidableEq

namespace CrcAlgorithm

/-- The name of an algorithm. -/
def name : CrcAlgorithm → String
  | software => "SOFTWARE"
  | hardware => "HARDWARE"

/-- The CRC of a byte string. -/
def compute : CrcAlgorithm → Bytes → UInt16
  | software => Crc.software
  | hardware => Crc.hardware

def all : List CrcAlgorithm := [software, hardware]

def toJson (a : CrcAlgorithm) : Json := .text a.name

end CrcAlgorithm

/-! ### Slot -/

/-- **The half of a trailing dword that stores the CRC.** The other half is reserved. -/
inductive CrcSlot where
  | high
  | low
  deriving DecidableEq

namespace CrcSlot

/-- The name of a slot. -/
def name : CrcSlot → String
  | high => "high"
  | low => "low"

/-- The CRC stored in a dword. -/
def get : CrcSlot → UInt32 → UInt16
  | high, dword => (dword >>> 16).toUInt16
  | low, dword => dword.toUInt16

/-- A dword with the CRC replaced and the other half kept. -/
def set : CrcSlot → UInt32 → UInt16 → UInt32
  | high, dword, crc => (dword &&& (0x0000ffff : UInt32)) ||| (crc.toUInt32 <<< 16)
  | low, dword, crc => (dword &&& (0xffff0000 : UInt32)) ||| crc.toUInt32

def all : List CrcSlot := [high, low]

def toJson (s : CrcSlot) : Json := .text s.name

end CrcSlot

/-! ### Reading a word of a fixed list -/

/-- The member of a list of words that a JSON value names: its name alone, or the name as the key of
an empty variant. -/
def Json.asWord? {α : Type} (all : List α) (name : α → String) (j : Json) : Option α := do
  let (word, payload) ← j.asVariant?
  if Json.isBare payload then all.find? (name · = word) else none

def CrcPlace.ofJson? (j : Json) : Option CrcPlace := j.asWord? CrcPlace.all CrcPlace.name

def CrcAlgorithm.ofJson? (j : Json) : Option CrcAlgorithm :=
  j.asWord? CrcAlgorithm.all CrcAlgorithm.name

def CrcSlot.ofJson? (j : Json) : Option CrcSlot := j.asWord? CrcSlot.all CrcSlot.name

/-! ### Status -/

/-- **The outcome of verifying one CRC.** -/
inductive CrcStatus where
  /-- The section carries no CRC. -/
  | notApplicable
  /-- Verification is not possible, for instance in an encrypted image. -/
  | skipped
  | valid
  | invalid (stored computed : UInt16)
  deriving DecidableEq

namespace CrcStatus

/-- The outcome of comparing a stored with a computed CRC. -/
def check (stored computed : UInt16) : CrcStatus :=
  if stored = computed then valid else invalid stored computed

/-- Whether a check was made and failed. -/
def isInvalid : CrcStatus → Bool
  | invalid _ _ => true
  | _ => false

/-- A check succeeds exactly on equal values. -/
theorem isInvalid_check (stored computed : UInt16) :
    (check stored computed).isInvalid = true ↔ stored ≠ computed := by
  by_cases h : stored = computed <;> simp [check, h, isInvalid]

/-- The wording of an outcome. -/
def message : CrcStatus → String
  | notApplicable => "-"
  | skipped => "skipped"
  | valid => "ok"
  | invalid stored computed =>
    s!"BAD (stored {Text.hex 4 stored.toNat}, computed {Text.hex 4 computed.toNat})"

def toJson : CrcStatus → Json
  | notApplicable => .text "NotApplicable"
  | skipped => .text "Skipped"
  | valid => .text "Valid"
  | invalid stored computed =>
    .variant "Invalid"
      (.record [("expected", .nat stored.toNat), ("computed", .nat computed.toNat)])

def ofJson? (j : Json) : Option CrcStatus := do
  match ← j.asVariant? with
  | ("NotApplicable", payload) => if Json.isBare payload then some notApplicable else none
  | ("Skipped", payload) => if Json.isBare payload then some skipped else none
  | ("Valid", payload) => if Json.isBare payload then some valid else none
  | ("Invalid", some payload) =>
    let [stored, computed] ← payload.fields? ["expected", "computed"] | none
    return invalid (← Json.given? Json.asU16? stored) (← Json.given? Json.asU16? computed)
  | _ => none

end CrcStatus

end FlashImage
