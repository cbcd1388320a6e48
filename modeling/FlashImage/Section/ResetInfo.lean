import FlashImage.BitField
import FlashImage.Section.Error
import FlashImage.Text.Hex
import FlashImage.Version

/-!
# Reset capabilities

A dword of capabilities is followed by six versions that they apply to, and by reserved bytes.
-/

namespace FlashImage

/-- **Reset capabilities**, and the versions they apply to. -/
structure ResetInfo where
  capabilities : UInt32
  versions : List Version
  reserved : Bytes
  deriving DecidableEq

namespace ResetInfo

/-- The number of versions in the record. -/
def versionCount : Nat := 6

/-- The number of bytes of the fixed part. -/
def size : Nat := 4 + versionCount * Version.size

def decode (d : Bytes) : Except DecodeError ResetInfo := do
  needBytes d size
  return ⟨d.u32At 0, Version.decodeAll d 4 versionCount, d.drop size⟩

def encode (r : ResetInfo) : Bytes :=
  Bytes.u32 r.capabilities ++ Version.encodeAll r.versions ++ r.reserved

/-- Whether the adapter can keep in step with the bus during an update. -/
def busSync (r : ResetInfo) : Bool := bits r.capabilities 0 0 = 1

/-- The level of reset that is needed. -/
def resetLevel (r : ResetInfo) : UInt32 := bits r.capabilities 3 1

/-- Whether new firmware can be activated without a reset. -/
def activation (r : ResetInfo) : Bool := bits r.capabilities 4 4 = 1

/-- The capabilities as text, and the versions on a line of their own. -/
def text (r : ResetInfo) : String :=
  s!"  Reset level: {Text.decimal r.resetLevel.toNat}, PCI sync: {r.busSync}, " ++
    s!"FW activation: {r.activation}\n  Versions: {Version.textAll r.versions}"

def toJson (r : ResetInfo) : Json :=
  .record [("caps", .nat r.capabilities.toNat), ("versions", .list Version.toJson r.versions),
    ("reserved", Hex.toJson r.reserved)]

def ofJson? (j : Json) : Option ResetInfo := do
  let [capabilities, versions, reserved] ← j.fields? ["caps", "versions", "reserved"] | none
  return ⟨← Json.given? Json.asU32? capabilities,
    ← Json.given? (Json.asList? Version.ofJson?) versions, ← Json.given? Hex.ofJson? reserved⟩

end ResetInfo

end FlashImage
