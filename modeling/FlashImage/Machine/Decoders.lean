import FlashImage.Machine.Records
import FlashImage.Section.Projection

/-!
# Reading contents, step by step

Each kind of contents has a decoder of its own. Some test the length of the contents first and then read at
fixed offsets; others read a number of records, or a length in dwords, and take the offsets of everything
behind it from there. Offsets and lengths that depend on the contents are sums and products of words.
-/

namespace FlashImage.Machine

/-- A refused access refuses the contents. -/
instance (priority := low) : MonadLift (Step AccessError) (Step DecodeError) :=
  ⟨ExceptT.adapt .access⟩

/-! ### Reading inside the contents -/

def readUid (d : Bytes) (offset : Nat) : Step AccessError UidBlock := do
  return ⟨← readU64 d offset, ← readU32 d (← add offset 8), ← readU32 d (← add offset 12)⟩

def readVersion (d : Bytes) (offset : Nat) : Step AccessError Version := do
  return ⟨← readU16 d offset, ← readU16 d (← add offset 2), ← readU16 d (← add offset 4),
    ← readU16 d (← add offset 6)⟩

/-! ### Descriptions of images and devices -/

def decodeImageInfo (d : Bytes) : Step DecodeError ImageInfo := do
  settled (needBytes d ImageInfo.size)
  return {
    flags := ← readU32 d 0x00
    fwMajor := ← readU16 d 0x04
    reserved0 := ← readU16 d 0x06
    fwMinor := ← readU16 d 0x08
    fwSubminor := ← readU16 d 0x0a
    releaseDate := ← readU32 d 0x0c
    micMajor := ← readU16 d 0x10
    reserved1 := ← readU16 d 0x12
    micMinor := ← readU16 d 0x14
    micSubminor := ← readU16 d 0x16
    pciDeviceId := ← readU16 d 0x18
    pciVendorId := ← readU16 d 0x1a
    pciSubsystemId := ← readU16 d 0x1c
    pciSubsysVendorId := ← readU16 d 0x1e
    psid := ← fieldText (← slice d 0x20 0x10)
    reserved2 := ← readU32 d 0x30
    reserved3 := ← readU16 d 0x34
    vsdVendorId := ← readU16 d 0x36
    vsd := ← fieldText (← slice d 0x38 0xd0)
    imageSize := (← readU32 d 0x108, ← readU32 d 0x10c)
    reserved4 := ← slice d 0x110 0x10
    supportedHwId := (← readU32 d 0x120, ← readU32 d 0x124, ← readU32 d 0x128, ← readU32 d 0x12c)
    iniFileNum := ← readU32 d 0x130
    reserved5 := ← slice d 0x134 0x0c
    prodVer := ← fieldText (← slice d 0x140 0x10)
    name := ← fieldText (← slice d 0x150 0x40)
    description := ← fieldText (← slice d 0x190 0x100)
    reserved6 := ← slice d 0x290 0x170
    extra := ← sliceFrom d ImageInfo.size }

def decodeDeviceInfo (d : Bytes) : Step DecodeError DeviceInfo := do
  if d.length ≠ DeviceInfo.size then throw (.badLength d.length)
  else
    let mark ← readU32 d 0
    if mark ≠ DeviceInfo.mark then throw (.badMagic DeviceInfo.mark mark)
    else return {
      signature := (mark, ← readU32 d 0x04, ← readU32 d 0x08, ← readU32 d 0x0c)
      version := ← readU32 d 0x10
      reserved0 := ← slice d 0x14 0x0c
      guids := ← readUid d 0x20
      macs := ← readUid d 0x30
      reserved1 := ← slice d 0x40 0x90
      vsd := ← fieldText (← slice d 0xd0 0xd0)
      reserved2 := ← slice d 0x1a0 (DeviceInfo.size - 0x1a0) }

def decodeMfgInfo (d : Bytes) : Step DecodeError MfgInfo := do
  settled (needBytes d MfgInfo.size)
  return {
    psid := ← fieldText (← slice d 0 0x10)
    reserved0 := ← slice d 0x10 0x0c
    version := ← readU32 d 0x1c
    guids := ← readUid d 0x20
    macs := ← readUid d (0x20 + UidBlock.size)
    reserved1 := ← sliceFrom d MfgInfo.size }

/-! ### The boot loader and the digests -/

/-- The number of bytes of a section that starts with its own length: a number of dwords at an offset,
and some more behind them. -/
def statedLength (offset more : Nat) (bs : Bytes) : Run (Option Nat) := do
  match ← (readU32 bs offset).run with
  | .ok dwords => return (checkedAdd dwords.toNat more).bind (checkedMul · 4)
  | .error _ => return none

def decodeBoot2 (d : Bytes) : Step DecodeError Boot2 := do
  let header ← readU32 d 0
  let sizeDwords ← readU32 d 4
  let expected ← mul (← add sizeDwords.toNat 3) 4
  if d.length ≠ expected then throw (.badLength d.length)
  else
    let codeLength ← mul sizeDwords.toNat 4
    return {
      header := header
      sizeDwords := sizeDwords
      code := ← slice d 8 codeLength
      reserved := ← readU32 d (← add 8 codeLength) }

def readHashEntry (d : Bytes) (offset : Nat) : Step AccessError HashEntry := do
  return ⟨← readU32 d offset, ← readU32 d (← add offset 4)⟩

def decodeHashesTable (d : Bytes) : Step DecodeError HashesTable := do
  settled (needBytes d HashesTable.headerSize)
  let count ← readU32 d 4
  let dwords ← readU32 d 8
  if d.length ≠ (← mul dwords.toNat 4) then throw (.badLength d.length)
  else
    let n := HashesTable.entryCount count
    let storageStart ← add HashesTable.headerSize (← mul n HashEntry.size)
    settled (needBytes d storageStart)
    let entries ← (List.range n).mapM fun i => do
      readHashEntry d (← add HashesTable.headerSize (← mul i HashEntry.size))
    return {
      version := ← readU32 d 0
      count := count
      dwords := dwords
      reserved := ← readU32 d 12
      entries := entries
      storage := ← sliceFrom d storageStart }

/-! ### Versions -/

/-- Versions in a row, behind the first dword. -/
def readVersions (d : Bytes) (count : Nat) : Step AccessError (List Version) :=
  (List.range count).mapM fun i => do readVersion d (← add 4 (← mul i Version.size))

def decodeResetInfo (d : Bytes) : Step DecodeError ResetInfo := do
  settled (needBytes d ResetInfo.size)
  let versions ← readVersions d ResetInfo.versionCount
  return ⟨← readU32 d 0, versions, ← sliceFrom d ResetInfo.size⟩

def decodeForbiddenVersions (d : Bytes) : Step DecodeError ForbiddenVersions := do
  settled (needBytes d 4)
  let count ← readU32 d 0
  let n := ForbiddenVersions.versionCount count
  let last ← add 4 (← mul n Version.size)
  settled (needBytes d last)
  let versions ← readVersions d n
  return ⟨count, versions, ← sliceFrom d last⟩

/-! ### Signatures and keys -/

def decodeImageSignature (length : Nat) (d : Bytes) : Step DecodeError ImageSignature := do
  let last ← add 4 length
  settled (needBytes d last)
  return ⟨← readU32 d 0, ← slice d 4 length, ← sliceFrom d last⟩

def readPublicKey (length : Nat) (d : Bytes) (offset : Nat) : Step AccessError PublicKey := do
  return {
    exponent := ← readU32 d offset
    uuid := ← slice d (← add offset 4) PublicKey.uuidSize
    key := ← slice d (← add (← add offset 4) PublicKey.uuidSize) length }

def decodePublicKeys (length : Nat) (d : Bytes) : Step DecodeError PublicKeys := do
  let size ← add (4 + PublicKey.uuidSize) length
  settled (needBytes d size)
  let n := d.length / size
  let keys ← (List.range n).mapM fun i => do readPublicKey length d (← mul i size)
  return ⟨keys, ← sliceFrom d (← mul n size)⟩

/-! ### Records and bytes -/

def decodeToolsArea (d : Bytes) : Step DecodeError ToolsArea := do
  if d.length ≠ ToolsArea.size then throw (.badLength d.length)
  else return {
    version := ← readU32 d 0
    binVersion := ← readU32 d 4
    slotSize := ← readU32 d 8
    reserved := ← slice d 0x0c (ToolsArea.crcOffset - 0x0c)
    crcReserved := ← readU16 d ToolsArea.crcOffset
    crc := ← readU16 d (ToolsArea.crcOffset + 2) }

/-- The identifier in front of product data, behind a tag and a length with its low byte first. -/
def vpdId (d : Bytes) : Run (Option String) := do
  match d with
  | tag :: low :: high :: _ =>
    if tag = Blob.idTag then
      let last ← add 3 (high.toNat * 256 + low.toNat)
      return (part? d 3 last).map Bytes.toStringLossy
    else return none
  | _ => return none

def decodeBlob (productData : Bool) (d : Bytes) : Run Blob := do
  let header ← (readDwords d 0 (min (d.length / 4) Blob.headerDwords)).run
  let id ← if productData then vpdId d else .ok none
  return {
    header := header.toOption.getD []
    length := d.length
    vpdId := id
    data := d }

/-! ### Contents of every kind -/

def decode [Algorithms] (family : Family) (d : Bytes) : Step DecodeError Projection :=
  match family with
  | .generic => return .raw "opaque"
  | .pointers => .pointers <$> settled ((Pointers.decode d).mapError .access)
  | .toc => .toc <$> (decodeToc d).adapt .toc
  | .imageInfo => .imageInfo <$> decodeImageInfo d
  | .deviceInfo => .deviceInfo <$> decodeDeviceInfo d
  | .mfgInfo => .mfgInfo <$> decodeMfgInfo d
  | .boot2 => .boot2 <$> decodeBoot2 d
  | .hashesTable => .hashesTable <$> decodeHashesTable d
  | .resetInfo => .resetInfo <$> decodeResetInfo d
  | .imageSignature length => .imageSignature <$> decodeImageSignature length.toNat d
  | .publicKeys length => .publicKeys <$> decodePublicKeys length.toNat d
  | .forbiddenVersions => .forbiddenVersions <$> decodeForbiddenVersions d
  | .debugIni => .debugIni <$> settled (DebugIni.decode d)
  | .debugParams => return .debugParams (DebugParams.decode d)
  | .blob => return .blob (← decodeBlob false d)
  | .vpd => return .blob (← decodeBlob true d)
  | .toolsArea => .toolsArea <$> decodeToolsArea d

end FlashImage.Machine
