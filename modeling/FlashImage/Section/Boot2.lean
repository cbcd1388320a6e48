import FlashImage.Section.Error

/-!
# The second stage boot loader

Two dwords stand in front of the code: a header, and the number of dwords of the code. A reserved dword
and a CRC dword follow it. The pointer that leads to the boot loader does not say how long it is, so
the length is taken from the second dword (`Boot2.sectionLength?`).
-/

namespace FlashImage

/-- **The second stage boot loader.** -/
structure Boot2 where
  header : UInt32
  sizeDwords : UInt32
  reserved : UInt32
  code : Bytes
  deriving DecidableEq

namespace Boot2

/-- **The number of bytes of the section** that starts here, CRC dword included. -/
def sectionLength? (bs : Bytes) : Option Nat :=
  (bs.readU32 4).toOption.map fun dwords => (dwords.toNat + 4) * 4

/-- **The boot loader in the contents of a section**, which has to be exactly as long as it says. -/
def decode (d : Bytes) : Except DecodeError Boot2 := do
  let header ← (d.readU32 0).mapError .access
  let sizeDwords ← (d.readU32 4).mapError .access
  if d.length = (sizeDwords.toNat + 3) * 4 then
    return ⟨header, sizeDwords, d.u32At (8 + sizeDwords.toNat * 4), d.slice 8 (sizeDwords.toNat * 4)⟩
  else .error (.badLength d.length)

/-- The contents of a section with this boot loader. -/
def encode (b : Boot2) : Bytes :=
  Bytes.u32 b.header ++ Bytes.u32 b.sizeDwords ++ b.code ++ Bytes.u32 b.reserved

/-- The code is not part of the JSON form; it is kept in a file of its own. -/
def toJson (b : Boot2) : Json :=
  .record [("header", .nat b.header.toNat), ("size_dwords", .nat b.sizeDwords.toNat),
    ("reserved", .nat b.reserved.toNat)]

/-- A boot loader read from JSON has no code. -/
def ofJson? (j : Json) : Option Boot2 := do
  let [header, sizeDwords, reserved] ← j.fields? ["header", "size_dwords", "reserved"] | none
  return ⟨← Json.given? Json.asU32? header, ← Json.given? Json.asU32? sizeDwords,
    ← Json.given? Json.asU32? reserved, []⟩

end Boot2

end FlashImage
