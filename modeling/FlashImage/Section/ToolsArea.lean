import FlashImage.BitField
import FlashImage.Checksum.Crc
import FlashImage.Section.Error
import FlashImage.Text.Hex

/-!
# The record for the flashing tools

Sixteen dwords tell the tools how the flash is laid out. The record carries a CRC of its own, which is
shown and written back but does not count as the CRC of a section.
-/

namespace FlashImage

/-- **The record for the flashing tools.** -/
structure ToolsArea where
  version : UInt32
  binVersion : UInt32
  /-- The size of an image slot, as a power of two in its lowest byte. -/
  slotSize : UInt32
  reserved : Bytes
  crcReserved : UInt16
  crc : UInt16
  deriving DecidableEq

namespace ToolsArea

/-- The number of bytes of the record. -/
def size : Nat := 0x40

/-- The offset of the dword with the CRC. -/
def crcOffset : Nat := 0x3c

def decode (d : Bytes) : Except DecodeError ToolsArea :=
  if d.length = size then
    .ok ⟨d.u32At 0, d.u32At 4, d.u32At 8, d.slice 0x0c (crcOffset - 0x0c), d.u16At crcOffset,
      d.u16At (crcOffset + 2)⟩
  else .error (.badLength d.length)

def encode (t : ToolsArea) : Except AccessError Bytes := do
  let reserved ← Bytes.exactWidth "reserved" t.reserved (crcOffset - 0x0c)
  return Bytes.ofDwords [t.version, t.binVersion, t.slotSize] ++ reserved ++ Bytes.u16 t.crcReserved
    ++ Bytes.u16 t.crc

/-- **The size of an image slot**, if it is a number of 64 bits. -/
def slotBytes? (t : ToolsArea) : Option Nat :=
  let log := (bits t.slotSize 7 0).toNat
  if log < 64 then some (1 <<< log) else none

/-- The CRC that the record should carry. -/
def computedCrc (t : ToolsArea) : Except AccessError UInt16 := do
  return Crc.software ((← t.encode).take crcOffset)

/-- The record as one line of text. -/
def text (t : ToolsArea) : String :=
  let part (word : UInt32) (msb lsb : Nat) := Text.decimal (bits word msb lsb).toNat
  let slot := match t.slotBytes? with
    | some n => s!"0x{Text.hex 1 n}"
    | none => "?"
  s!"  Tools area v{part t.version 15 8}.{part t.version 7 0}, " ++
    s!"binary v{part t.binVersion 31 16}.{part t.binVersion 15 0}, slot size {slot}"

def toJson (t : ToolsArea) : Json :=
  .record [("version", .nat t.version.toNat), ("bin_version", .nat t.binVersion.toNat),
    ("slot_size", .nat t.slotSize.toNat), ("reserved", Hex.toJson t.reserved),
    ("crc_reserved", .nat t.crcReserved.toNat), ("crc", .nat t.crc.toNat)]

def ofJson? (j : Json) : Option ToolsArea := do
  let [version, binVersion, slotSize, reserved, crcReserved, crc] ←
    j.fields? ["version", "bin_version", "slot_size", "reserved", "crc_reserved", "crc"] | none
  return {
    version := ← Json.given? Json.asU32? version
    binVersion := ← Json.given? Json.asU32? binVersion
    slotSize := ← Json.given? Json.asU32? slotSize
    reserved := ← Json.given? Hex.ofJson? reserved
    crcReserved := ← Json.given? Json.asU16? crcReserved
    crc := ← Json.given? Json.asU16? crc }

end ToolsArea

end FlashImage
