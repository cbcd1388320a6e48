import FlashImage.BitField
import FlashImage.Json.Decode

/-!
# Ranges of identifiers

Devices are given their GUIDs and MAC addresses as ranges: the first identifier, and a dword that says
how many follow it and how far apart.
-/

namespace FlashImage

/-- **A range of identifiers.** -/
structure UidBlock where
  uid : UInt64
  allocation : UInt32
  reserved : UInt32
  deriving DecidableEq

namespace UidBlock

/-- The number of bytes of a stored range. -/
def size : Nat := 16

/-- How many identifiers are allocated. -/
def allocated (b : UidBlock) : UInt32 := bits b.allocation 7 0

/-- How far apart they are. -/
def step (b : UidBlock) : UInt32 := bits b.allocation 15 8

/-- The range stored at an offset. -/
def decodeAt (bs : Bytes) (offset : Nat) : UidBlock :=
  ⟨bs.u64At offset, bs.u32At (offset + 8), bs.u32At (offset + 12)⟩

/-- The stored form of a range. -/
def encode (b : UidBlock) : Bytes := Bytes.u64 b.uid ++ Bytes.u32 b.allocation ++ Bytes.u32 b.reserved

@[simp] theorem length_encode (b : UidBlock) : b.encode.length = size := by
  simp [encode, size]

/-- A range as text. -/
def text (b : UidBlock) : String :=
  s!"{Text.hex 16 b.uid.toNat} ({Text.decimal b.allocated.toNat} allocated, " ++
    s!"step {Text.decimal b.step.toNat})"

def toJson (b : UidBlock) : Json :=
  .record [("uid", .nat b.uid.toNat), ("allocation", .nat b.allocation.toNat),
    ("reserved", .nat b.reserved.toNat)]

def ofJson? (j : Json) : Option UidBlock := do
  let [uid, allocation, reserved] ← j.fields? ["uid", "allocation", "reserved"] | none
  return ⟨← Json.given? Json.asU64? uid, ← Json.given? Json.asU32? allocation,
    ← Json.given? Json.asU32? reserved⟩

end UidBlock

end FlashImage
