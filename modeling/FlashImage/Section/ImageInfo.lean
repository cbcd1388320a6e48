import FlashImage.BitField
import FlashImage.Section.Error
import FlashImage.Text.Field
import FlashImage.Version

/-!
# The description of an image

A block of 1024 bytes holds the firmware version, the release date, the identifiers of the adapter and
the names of the product. Whatever follows the block is carried along.
-/

namespace FlashImage

/-- **The description of an image.** Fields are in the order in which they are stored. -/
structure ImageInfo where
  flags : UInt32
  fwMajor : UInt16
  reserved0 : UInt16
  fwMinor : UInt16
  fwSubminor : UInt16
  /-- The release date in binary coded decimal. -/
  releaseDate : UInt32
  micMajor : UInt16
  reserved1 : UInt16
  micMinor : UInt16
  micSubminor : UInt16
  pciDeviceId : UInt16
  pciVendorId : UInt16
  pciSubsystemId : UInt16
  pciSubsysVendorId : UInt16
  psid : FieldText
  reserved2 : UInt32
  reserved3 : UInt16
  vsdVendorId : UInt16
  vsd : FieldText
  /-- Two dwords. -/
  imageSize : UInt32 × UInt32
  reserved4 : Bytes
  /-- Four dwords. -/
  supportedHwId : UInt32 × UInt32 × UInt32 × UInt32
  iniFileNum : UInt32
  reserved5 : Bytes
  prodVer : FieldText
  name : FieldText
  description : FieldText
  reserved6 : Bytes
  extra : Bytes
  deriving DecidableEq

namespace ImageInfo

/-- The number of bytes of the block. -/
def size : Nat := 0x400

/-! ### Stored form -/

/-- **The description in the contents of a section.** -/
def decode (d : Bytes) : Except DecodeError ImageInfo := do
  needBytes d size
  return {
    flags := d.u32At 0x00
    fwMajor := d.u16At 0x04
    reserved0 := d.u16At 0x06
    fwMinor := d.u16At 0x08
    fwSubminor := d.u16At 0x0a
    releaseDate := d.u32At 0x0c
    micMajor := d.u16At 0x10
    reserved1 := d.u16At 0x12
    micMinor := d.u16At 0x14
    micSubminor := d.u16At 0x16
    pciDeviceId := d.u16At 0x18
    pciVendorId := d.u16At 0x1a
    pciSubsystemId := d.u16At 0x1c
    pciSubsysVendorId := d.u16At 0x1e
    psid := .ofField (d.slice 0x20 0x10)
    reserved2 := d.u32At 0x30
    reserved3 := d.u16At 0x34
    vsdVendorId := d.u16At 0x36
    vsd := .ofField (d.slice 0x38 0xd0)
    imageSize := (d.u32At 0x108, d.u32At 0x10c)
    reserved4 := d.slice 0x110 0x10
    supportedHwId := (d.u32At 0x120, d.u32At 0x124, d.u32At 0x128, d.u32At 0x12c)
    iniFileNum := d.u32At 0x130
    reserved5 := d.slice 0x134 0x0c
    prodVer := .ofField (d.slice 0x140 0x10)
    name := .ofField (d.slice 0x150 0x40)
    description := .ofField (d.slice 0x190 0x100)
    reserved6 := d.slice 0x290 0x170
    extra := d.drop size }

/-- The numbers in front of the first text. -/
def encodeHead (i : ImageInfo) : Bytes :=
  Bytes.u32 i.flags ++ Bytes.u16 i.fwMajor ++ Bytes.u16 i.reserved0 ++ Bytes.u16 i.fwMinor
    ++ Bytes.u16 i.fwSubminor ++ Bytes.u32 i.releaseDate ++ Bytes.u16 i.micMajor
    ++ Bytes.u16 i.reserved1 ++ Bytes.u16 i.micMinor ++ Bytes.u16 i.micSubminor
    ++ Bytes.u16 i.pciDeviceId ++ Bytes.u16 i.pciVendorId ++ Bytes.u16 i.pciSubsystemId
    ++ Bytes.u16 i.pciSubsysVendorId

/-- The numbers behind the vendor's own text. -/
def encodeHardwareIds (i : ImageInfo) : Bytes :=
  let (a, b, c, d) := i.supportedHwId
  Bytes.ofDwords [a, b, c, d] ++ Bytes.u32 i.iniFileNum

/-- **The contents of a section with this description.** The first field that does not fit its width,
in the order of the fields, is refused. -/
def encode (i : ImageInfo) : Except AccessError Bytes := do
  let psid ← i.psid.toField "psid" 0x10
  let vsd ← i.vsd.toField "vsd" 0xd0
  let reserved4 ← Bytes.exactWidth "reserved4" i.reserved4 0x10
  let reserved5 ← Bytes.exactWidth "reserved5" i.reserved5 0x0c
  let prodVer ← i.prodVer.toField "prod_ver" 0x10
  let name ← i.name.toField "name" 0x40
  let description ← i.description.toField "description" 0x100
  let reserved6 ← Bytes.exactWidth "reserved6" i.reserved6 0x170
  return i.encodeHead ++ psid ++ Bytes.u32 i.reserved2 ++ Bytes.u16 i.reserved3
    ++ Bytes.u16 i.vsdVendorId ++ vsd ++ Bytes.ofDwords [i.imageSize.1, i.imageSize.2] ++ reserved4
    ++ i.encodeHardwareIds ++ reserved5 ++ prodVer ++ name ++ description ++ reserved6 ++ i.extra

/-! ### Views -/

/-- The version of the firmware. -/
def fwVersion (i : ImageInfo) : Version := ⟨i.fwMajor, i.fwMinor, i.fwSubminor, i.reserved0⟩

/-- The vendor of the product, as it is known outside. -/
def vendorId (i : ImageInfo) : UInt16 := i.vsdVendorId

def minorVersion (i : ImageInfo) : UInt32 := bits i.flags 7 0
def majorVersion (i : ImageInfo) : UInt32 := bits i.flags 15 8
def mccEnabled (i : ImageInfo) : Bool := bits i.flags 29 29 = 1
def debugFirmware (i : ImageInfo) : Bool := bits i.flags 30 30 = 1
def signedFirmware (i : ImageInfo) : Bool := bits i.flags 31 31 = 1

/-- The release date as day, month and year. -/
def dateText (i : ImageInfo) : String :=
  let part (width msb lsb : Nat) := Text.hex width (bits i.releaseDate msb lsb).toNat
  s!"{part 2 31 24}.{part 2 23 16}.{part 4 15 0}"

/-- **The description as text**, a line for each of its points. -/
def text (i : ImageInfo) : String :=
  let id (x : UInt16) := Text.hex 4 x.toNat
  "\n".intercalate [
    s!"  FW version:    {i.fwVersion.text}",
    s!"  Release date:  {i.dateText}",
    s!"  PSID:          {i.psid.display}",
    s!"  PCI IDs:       {id i.pciVendorId}:{id i.pciDeviceId} " ++
      s!"({id i.pciSubsysVendorId}:{id i.pciSubsystemId})",
    s!"  Name:          {i.name.display}",
    s!"  Description:   {i.description.display}",
    s!"  Product ver.:  {i.prodVer.display}",
    s!"  VSD vendor ID: {id i.vendorId}"]

/-! ### JSON -/

def toJson (i : ImageInfo) : Json :=
  let n16 (x : UInt16) := Json.nat x.toNat
  let n32 (x : UInt32) := Json.nat x.toNat
  let (h0, h1, h2, h3) := i.supportedHwId
  .record [
    ("flags", n32 i.flags), ("fw_major", n16 i.fwMajor), ("reserved0", n16 i.reserved0),
    ("fw_minor", n16 i.fwMinor), ("fw_subminor", n16 i.fwSubminor),
    ("release_date", n32 i.releaseDate), ("mic_major", n16 i.micMajor),
    ("reserved1", n16 i.reserved1), ("mic_minor", n16 i.micMinor),
    ("mic_subminor", n16 i.micSubminor), ("pci_device_id", n16 i.pciDeviceId),
    ("pci_vendor_id", n16 i.pciVendorId), ("pci_subsystem_id", n16 i.pciSubsystemId),
    ("pci_subsys_vendor_id", n16 i.pciSubsysVendorId), ("psid", i.psid.toJson),
    ("reserved2", n32 i.reserved2), ("reserved3", n16 i.reserved3),
    ("vsd_vendor_id", n16 i.vsdVendorId), ("vsd", i.vsd.toJson),
    ("image_size", .list n32 [i.imageSize.1, i.imageSize.2]),
    ("reserved4", Hex.toJson i.reserved4), ("supported_hw_id", .list n32 [h0, h1, h2, h3]),
    ("ini_file_num", n32 i.iniFileNum), ("reserved5", Hex.toJson i.reserved5),
    ("prod_ver", i.prodVer.toJson), ("name", i.name.toJson),
    ("description", i.description.toJson), ("reserved6", Hex.toJson i.reserved6),
    ("extra", Hex.toJson i.extra)]

/-- The names of the fields in JSON, in order. -/
def jsonFields : List String :=
  ["flags", "fw_major", "reserved0", "fw_minor", "fw_subminor", "release_date", "mic_major",
    "reserved1", "mic_minor", "mic_subminor", "pci_device_id", "pci_vendor_id", "pci_subsystem_id",
    "pci_subsys_vendor_id", "psid", "reserved2", "reserved3", "vsd_vendor_id", "vsd", "image_size",
    "reserved4", "supported_hw_id", "ini_file_num", "reserved5", "prod_ver", "name", "description",
    "reserved6", "extra"]

/-- Two dwords. -/
def pairOfJson? (j : Json) : Option (UInt32 × UInt32) := do
  let [a, b] ← j.asList? Json.asU32? | none
  return (a, b)

/-- Four dwords. -/
def quadOfJson? (j : Json) : Option (UInt32 × UInt32 × UInt32 × UInt32) := do
  let [a, b, c, d] ← j.asList? Json.asU32? | none
  return (a, b, c, d)

def ofJson? (j : Json) : Option ImageInfo := do
  let [flags, fwMajor, reserved0, fwMinor, fwSubminor, releaseDate, micMajor, reserved1, micMinor,
    micSubminor, pciDeviceId, pciVendorId, pciSubsystemId, pciSubsysVendorId, psid, reserved2,
    reserved3, vsdVendorId, vsd, imageSize, reserved4, supportedHwId, iniFileNum, reserved5, prodVer,
    name, description, reserved6, extra] ← j.fields? jsonFields | none
  let n16 := Json.given? Json.asU16?
  let n32 := Json.given? Json.asU32?
  let hex := Json.given? Hex.ofJson?
  let text := Json.given? FieldText.ofJson?
  return {
    flags := ← n32 flags
    fwMajor := ← n16 fwMajor
    reserved0 := ← n16 reserved0
    fwMinor := ← n16 fwMinor
    fwSubminor := ← n16 fwSubminor
    releaseDate := ← n32 releaseDate
    micMajor := ← n16 micMajor
    reserved1 := ← n16 reserved1
    micMinor := ← n16 micMinor
    micSubminor := ← n16 micSubminor
    pciDeviceId := ← n16 pciDeviceId
    pciVendorId := ← n16 pciVendorId
    pciSubsystemId := ← n16 pciSubsystemId
    pciSubsysVendorId := ← n16 pciSubsysVendorId
    psid := ← text psid
    reserved2 := ← n32 reserved2
    reserved3 := ← n16 reserved3
    vsdVendorId := ← n16 vsdVendorId
    vsd := ← text vsd
    imageSize := ← Json.given? pairOfJson? imageSize
    reserved4 := ← hex reserved4
    supportedHwId := ← Json.given? quadOfJson? supportedHwId
    iniFileNum := ← n32 iniFileNum
    reserved5 := ← hex reserved5
    prodVer := ← text prodVer
    name := ← text name
    description := ← text description
    reserved6 := ← hex reserved6
    extra := ← hex extra }

end ImageInfo

end FlashImage
