import FlashImage.Machine.Decoders

/-!
# Writing contents, step by step

A projection is written back to be compared with the contents it was read from. An encoder sums up the size
of its buffer, makes a buffer of zeros of that size and writes one part after the other into it, each at its
own offset. What it writes is a list of `Write`s; some of their offsets depend on how many records there are,
so that such a list is itself a `Run`.
-/

namespace FlashImage.Machine

/-! ### Parts of a record -/

/-- **One part of a record and its place.** -/
inductive Write where
  | u16 (offset : Nat) (x : UInt16)
  | u32 (offset : Nat) (x : UInt32)
  | u64 (offset : Nat) (x : UInt64)
  | text (offset : Nat) (name : String) (t : FieldText) (width : Nat)
  | bytes (offset : Nat) (name : String) (bs : Bytes) (width : Nat)

namespace Write

def run (buffer : Bytes) : Write → Step AccessError Bytes
  | u16 offset x => put buffer offset (Bytes.u16 x)
  | u32 offset x => put buffer offset (Bytes.u32 x)
  | u64 offset x => put buffer offset (Bytes.u64 x)
  | text offset name t width => do
    put buffer offset (← exactWidth name (← toField t name width) width)
  | bytes offset name bs width => do
    put buffer offset (← exactWidth name bs width)

end Write

def runAll (buffer : Bytes) (ws : List Write) : Step AccessError Bytes :=
  ws.foldlM (fun buffer w => w.run buffer) buffer

/-- A buffer of zeros, written over. -/
def fill (size : Nat) (ws : List Write) : Step AccessError Bytes := do
  runAll (← filled size 0) ws

/-! ### Rows of records -/

/-- The writes of records in a row, each given its number. -/
def writeRows {α : Type} (row : α → Nat → Run (List Write)) (xs : List α) : Run (List Write) := do
  return (← xs.zipIdx.mapM fun x => row x.1 x.2).flatten

def writeDwords (first : Nat) (dwords : List UInt32) : Run (List Write) :=
  writeRows (fun dword i => do return [.u32 (← add first (← mul i 4)) dword]) dwords

def writeUid (offset : Nat) (b : UidBlock) : Run (List Write) := do
  return [.u64 offset b.uid, .u32 (← add offset 8) b.allocation, .u32 (← add offset 12) b.reserved]

/-- Versions in a row, behind the first dword. -/
def writeVersions (vs : List Version) : Run (List Write) :=
  writeRows (fun v i => do
    let offset ← add 4 (← mul i Version.size)
    return [.u16 offset v.major, .u16 (← add offset 2) v.minor, .u16 (← add offset 4) v.subminor,
      .u16 (← add offset 6) v.reserved]) vs

def writeHashEntries (es : List HashEntry) : Run (List Write) :=
  writeRows (fun e i => do
    let offset ← add HashesTable.headerSize (← mul i HashEntry.size)
    return [.u32 offset e.location, .u32 (← add offset 4) e.extent]) es

/-! ### Descriptions of images and devices -/

def encodeImageInfo (i : ImageInfo) : Step AccessError Bytes := do
  let size ← add ImageInfo.size i.extra.length
  let (h0, h1, h2, h3) := i.supportedHwId
  let hwIds ← (writeDwords 0x120 [h0, h1, h2, h3] : Run _)
  fill size ([.u32 0x00 i.flags, .u16 0x04 i.fwMajor, .u16 0x06 i.reserved0, .u16 0x08 i.fwMinor,
      .u16 0x0a i.fwSubminor, .u32 0x0c i.releaseDate, .u16 0x10 i.micMajor, .u16 0x12 i.reserved1,
      .u16 0x14 i.micMinor, .u16 0x16 i.micSubminor, .u16 0x18 i.pciDeviceId, .u16 0x1a i.pciVendorId,
      .u16 0x1c i.pciSubsystemId, .u16 0x1e i.pciSubsysVendorId, .text 0x20 "psid" i.psid 0x10,
      .u32 0x30 i.reserved2, .u16 0x34 i.reserved3, .u16 0x36 i.vsdVendorId, .text 0x38 "vsd" i.vsd 0xd0,
      .u32 0x108 i.imageSize.1, .u32 0x10c i.imageSize.2, .bytes 0x110 "reserved4" i.reserved4 0x10]
    ++ hwIds
    ++ [.u32 0x130 i.iniFileNum, .bytes 0x134 "reserved5" i.reserved5 0x0c,
      .text 0x140 "prod_ver" i.prodVer 0x10, .text 0x150 "name" i.name 0x40,
      .text 0x190 "description" i.description 0x100, .bytes 0x290 "reserved6" i.reserved6 0x170,
      .bytes ImageInfo.size "extra" i.extra i.extra.length])

def encodeDeviceInfo (i : DeviceInfo) : Step AccessError Bytes := do
  let (s0, s1, s2, s3) := i.signature
  let signature ← (writeDwords 0 [s0, s1, s2, s3] : Run _)
  let guids ← (writeUid 0x20 i.guids : Run _)
  let macs ← (writeUid 0x30 i.macs : Run _)
  fill DeviceInfo.size (signature
    ++ [.u32 0x10 i.version, .bytes 0x14 "reserved0" i.reserved0 0x0c] ++ guids ++ macs
    ++ [.bytes 0x40 "reserved1" i.reserved1 0x90, .text 0xd0 "vsd" i.vsd 0xd0,
      .bytes 0x1a0 "reserved2" i.reserved2 (DeviceInfo.size - 0x1a0)])

def encodeMfgInfo (m : MfgInfo) : Step AccessError Bytes := do
  let size ← add MfgInfo.size m.reserved1.length
  let guids ← (writeUid 0x20 m.guids : Run _)
  let macs ← (writeUid (0x20 + UidBlock.size) m.macs : Run _)
  fill size ([.text 0 "psid" m.psid 0x10, .bytes 0x10 "reserved0" m.reserved0 0x0c, .u32 0x1c m.version]
    ++ guids ++ macs ++ [.bytes MfgInfo.size "reserved1" m.reserved1 m.reserved1.length])

/-! ### Digests and versions -/

def encodeHashesTable (t : HashesTable) : Step AccessError Bytes := do
  let storageStart ← add HashesTable.headerSize (← mul t.entries.length HashEntry.size)
  let size ← add storageStart t.storage.length
  let entries ← (writeHashEntries t.entries : Run _)
  fill size ([.u32 0 t.version, .u32 4 t.count, .u32 8 t.dwords, .u32 12 t.reserved] ++ entries
    ++ [.bytes storageStart "storage" t.storage t.storage.length])

/-- A dword, versions behind it, and whatever follows those. -/
def encodeVersions (dword : UInt32) (vs : List Version) (name : String) (rest : Bytes) :
    Step AccessError Bytes := do
  let last ← add 4 (← mul vs.length Version.size)
  let size ← add last rest.length
  let versions ← (writeVersions vs : Run _)
  fill size ([.u32 0 dword] ++ versions ++ [.bytes last name rest rest.length])

def encodeToolsArea (t : ToolsArea) : Step AccessError Bytes :=
  fill ToolsArea.size [.u32 0 t.version, .u32 4 t.binVersion, .u32 8 t.slotSize,
    .bytes 0x0c "reserved" t.reserved (ToolsArea.crcOffset - 0x0c),
    .u16 ToolsArea.crcOffset t.crcReserved, .u16 (ToolsArea.crcOffset + 2) t.crc]

/-! ### Contents of every kind -/

def encode : Projection → Step AccessError Bytes
  | .pointers p => return p.encode
  | .toc t => return t.encode
  | .imageInfo i => encodeImageInfo i
  | .deviceInfo i => encodeDeviceInfo i
  | .mfgInfo m => encodeMfgInfo m
  | .boot2 b => do
    -- the room that is made for the record
    allocate (← add b.code.length 12)
    return b.encode
  | .hashesTable t => encodeHashesTable t
  | .resetInfo r => encodeVersions r.capabilities r.versions "reserved" r.reserved
  | .imageSignature s => return s.encode
  | .publicKeys ks => return ks.encode
  | .forbiddenVersions f => encodeVersions f.count f.versions "padding" f.padding
  | .debugIni i => return i.compressed
  | .debugParams p => return p.stored
  | .blob b => return b.data
  | .toolsArea t => encodeToolsArea t
  | .raw _ => throw .rawPayload

end FlashImage.Machine
