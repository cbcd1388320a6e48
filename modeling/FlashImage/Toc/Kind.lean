import FlashImage.Checksum.Rule

/-!
# Kinds of tables of contents

An image has a table of contents of its own (ITOC) and may have one for the data of the device it is
flashed to (DTOC). The two differ in the dword they start with.
-/

namespace FlashImage

/-- **The kind of a table.** -/
inductive TocKind where
  | itoc
  | dtoc
  deriving DecidableEq

namespace TocKind

/-- The name of a kind. -/
def name : TocKind → String
  | itoc => "ITOC"
  | dtoc => "DTOC"

def all : List TocKind := [itoc, dtoc]

def toJson (k : TocKind) : Json := .text k.name

def ofJson? (j : Json) : Option TocKind := j.asWord? all name

/-- **The dword a table starts with.** -/
def signature : TocKind → UInt32
  | itoc => 0x49544f43
  | dtoc => 0x64544f63

/-- The kind that a dword is the start of. -/
def ofSignature? (dword : UInt32) : Option TocKind := all.find? (signature · = dword)

@[simp] theorem ofSignature?_signature (k : TocKind) : ofSignature? k.signature = some k := by
  cases k <;> rfl

end TocKind

/-- **Why a table cannot be read.** -/
inductive TocError where
  /-- The first dword is not the start of a table. -/
  | badSignature (address : Nat) (found : UInt32)
  /-- There is no room for a header. -/
  | truncated (address size : Nat)
  deriving DecidableEq

namespace TocError

/-- The wording of a table error. -/
def message : TocError → String
  | badSignature address found =>
    s!"no TOC signature @ {Text.hex 8 address}, found {Text.hex 8 found.toNat}"
  | truncated address size =>
    s!"TOC header @ {Text.hex 8 address} exceeds image size {Text.hex 8 size}"

/-- The same error about another place: a table found at `address` in an image of `size` bytes. -/
def relocate (address size : Nat) : TocError → TocError
  | badSignature _ found => badSignature address found
  | truncated _ _ => truncated address size

def toJson : TocError → Json
  | badSignature address found =>
    .variant "BadSignature" (.record [("address", .nat address), ("found", .nat found.toNat)])
  | truncated address size =>
    .variant "Truncated" (.record [("address", .nat address), ("size", .nat size)])

def ofJson? (j : Json) : Option TocError := do
  match ← j.asVariant? with
  | ("BadSignature", some payload) =>
    let [address, found] ← payload.fields? ["address", "found"] | none
    return badSignature (← Json.given? Json.asSize? address) (← Json.given? Json.asU32? found)
  | ("Truncated", some payload) =>
    let [address, size] ← payload.fields? ["address", "size"] | none
    return truncated (← Json.given? Json.asSize? address) (← Json.given? Json.asSize? size)
  | _ => none

end TocError

end FlashImage
