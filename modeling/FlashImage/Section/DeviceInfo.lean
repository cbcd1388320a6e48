import FlashImage.Section.Error
import FlashImage.Section.UidBlock
import FlashImage.Text.Field

/-!
# Who a device is

Two records tell one device from another. `DeviceInfo` has a fixed length and starts with a signature;
`MfgInfo` says how the board left the factory, and whatever follows its fixed part is carried along.
Both hold the ranges of GUIDs and MAC addresses given to the device. The CRC dword that follows either
record on the flash is not part of it.

## Parts

* `DeviceInfo` — the record of a device;
* `MfgInfo` — the record of its manufacture.
-/

namespace FlashImage

/-! ### The record of a device -/

/-- **The record of a device.** Fields are in the order in which they are stored. -/
structure DeviceInfo where
  /-- Four dwords, of which the first marks the record. -/
  signature : UInt32 × UInt32 × UInt32 × UInt32
  version : UInt32
  reserved0 : Bytes
  guids : UidBlock
  macs : UidBlock
  reserved1 : Bytes
  vsd : FieldText
  reserved2 : Bytes
  deriving DecidableEq

namespace DeviceInfo

/-- The number of bytes of the record. -/
def size : Nat := 508

/-- The number of bytes of the record together with its CRC dword. -/
def sectionSize : Nat := size + 4

/-- The dword that the record starts with. -/
def mark : UInt32 := 0x6d446576

/-- **The record in the contents of a section.** -/
def decode (d : Bytes) : Except DecodeError DeviceInfo :=
  if d.length ≠ size then .error (.badLength d.length)
  else if d.u32At 0 ≠ mark then .error (.badMagic mark (d.u32At 0))
  else .ok {
    signature := (d.u32At 0x00, d.u32At 0x04, d.u32At 0x08, d.u32At 0x0c)
    version := d.u32At 0x10
    reserved0 := d.slice 0x14 0x0c
    guids := .decodeAt d 0x20
    macs := .decodeAt d 0x30
    reserved1 := d.slice 0x40 0x90
    vsd := .ofField (d.slice 0xd0 0xd0)
    reserved2 := d.slice 0x1a0 (size - 0x1a0) }

/-- **The contents of a section with this record.** The first field that does not fit its width, in
the order of the fields, is refused. -/
def encode (i : DeviceInfo) : Except AccessError Bytes := do
  let (s0, s1, s2, s3) := i.signature
  let reserved0 ← Bytes.exactWidth "reserved0" i.reserved0 0x0c
  let reserved1 ← Bytes.exactWidth "reserved1" i.reserved1 0x90
  let vsd ← i.vsd.toField "vsd" 0xd0
  let reserved2 ← Bytes.exactWidth "reserved2" i.reserved2 (size - 0x1a0)
  return Bytes.ofDwords [s0, s1, s2, s3] ++ Bytes.u32 i.version ++ reserved0 ++ i.guids.encode
    ++ i.macs.encode ++ reserved1 ++ vsd ++ reserved2

/-- The major version of the record's layout. -/
def majorVersion (i : DeviceInfo) : UInt32 := bits i.version 15 8

/-- The minor version of the record's layout. -/
def minorVersion (i : DeviceInfo) : UInt32 := bits i.version 7 0

/-- **The record as text**, a line for each of its points. -/
def text (i : DeviceInfo) : String :=
  "\n".intercalate [
    s!"  Version: {Text.decimal i.majorVersion.toNat}.{Text.decimal i.minorVersion.toNat}",
    s!"  GUIDs:   {i.guids.text}",
    s!"  MACs:    {i.macs.text}"]

def toJson (i : DeviceInfo) : Json :=
  let (s0, s1, s2, s3) := i.signature
  .record [
    ("signature", .list (fun s : UInt32 => .nat s.toNat) [s0, s1, s2, s3]),
    ("version", .nat i.version.toNat), ("reserved0", Hex.toJson i.reserved0),
    ("guids", i.guids.toJson), ("macs", i.macs.toJson), ("reserved1", Hex.toJson i.reserved1),
    ("vsd", i.vsd.toJson), ("reserved2", Hex.toJson i.reserved2)]

/-- The four dwords of a signature. -/
def signatureOfJson? (j : Json) : Option (UInt32 × UInt32 × UInt32 × UInt32) := do
  let [a, b, c, d] ← j.asList? Json.asU32? | none
  return (a, b, c, d)

def ofJson? (j : Json) : Option DeviceInfo := do
  let [signature, version, reserved0, guids, macs, reserved1, vsd, reserved2] ← j.fields?
    ["signature", "version", "reserved0", "guids", "macs", "reserved1", "vsd", "reserved2"] | none
  return {
    signature := ← Json.given? signatureOfJson? signature
    version := ← Json.given? Json.asU32? version
    reserved0 := ← Json.given? Hex.ofJson? reserved0
    guids := ← Json.given? UidBlock.ofJson? guids
    macs := ← Json.given? UidBlock.ofJson? macs
    reserved1 := ← Json.given? Hex.ofJson? reserved1
    vsd := ← Json.given? FieldText.ofJson? vsd
    reserved2 := ← Json.given? Hex.ofJson? reserved2 }

end DeviceInfo

/-! ### The record of its manufacture -/

/-- **The record of a device's manufacture.** Fields are in the order in which they are stored. -/
structure MfgInfo where
  psid : FieldText
  reserved0 : Bytes
  version : UInt32
  guids : UidBlock
  macs : UidBlock
  /-- Everything after the fixed part. -/
  reserved1 : Bytes
  deriving DecidableEq

namespace MfgInfo

/-- The number of bytes of the fixed part. -/
def size : Nat := 0x40

/-- **The record in the contents of a section.** -/
def decode (d : Bytes) : Except DecodeError MfgInfo := do
  needBytes d size
  return {
    psid := .ofField (d.slice 0 0x10)
    reserved0 := d.slice 0x10 0x0c
    version := d.u32At 0x1c
    guids := .decodeAt d 0x20
    macs := .decodeAt d 0x30
    reserved1 := d.drop size }

/-- **The contents of a section with this record.** -/
def encode (m : MfgInfo) : Except AccessError Bytes := do
  let psid ← m.psid.toField "psid" 0x10
  let reserved0 ← Bytes.exactWidth "reserved0" m.reserved0 0x0c
  return psid ++ reserved0 ++ Bytes.u32 m.version ++ m.guids.encode ++ m.macs.encode ++ m.reserved1

/-- **The record as text**, a line for each of its points. -/
def text (m : MfgInfo) : String :=
  "\n".intercalate [
    s!"  PSID:    {m.psid.display}",
    s!"  GUIDs:   {m.guids.text}",
    s!"  MACs:    {m.macs.text}"]

def toJson (m : MfgInfo) : Json :=
  .record [("psid", m.psid.toJson), ("reserved0", Hex.toJson m.reserved0),
    ("version", .nat m.version.toNat), ("guids", m.guids.toJson), ("macs", m.macs.toJson),
    ("reserved1", Hex.toJson m.reserved1)]

def ofJson? (j : Json) : Option MfgInfo := do
  let [psid, reserved0, version, guids, macs, reserved1] ←
    j.fields? ["psid", "reserved0", "version", "guids", "macs", "reserved1"] | none
  return {
    psid := ← Json.given? FieldText.ofJson? psid
    reserved0 := ← Json.given? Hex.ofJson? reserved0
    version := ← Json.given? Json.asU32? version
    guids := ← Json.given? UidBlock.ofJson? guids
    macs := ← Json.given? UidBlock.ofJson? macs
    reserved1 := ← Json.given? Hex.ofJson? reserved1 }

end MfgInfo

end FlashImage
