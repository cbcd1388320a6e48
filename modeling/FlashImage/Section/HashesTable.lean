import FlashImage.BitField
import FlashImage.Section.Error
import FlashImage.Text.Hex

/-!
# The table of digests

A header of four dwords is followed by entries of two dwords each, and by the storage that the digests
stand in. An entry finds its digest by an offset from the start of the whole table. The length in the
header counts everything but the CRC dword that follows the table.
-/

namespace FlashImage

/-- **Where one digest is**, as stored. -/
structure HashEntry where
  location : UInt32
  extent : UInt32
  deriving DecidableEq

namespace HashEntry

/-- The number of bytes of a stored entry. -/
def size : Nat := 8

/-- The offset of the digest from the start of the table. -/
def offset (e : HashEntry) : Nat := (bits e.location 15 0).toNat

/-- The kind of the digest. -/
def type (e : HashEntry) : Nat := (bits e.location 31 24).toNat

/-- The number of bytes of the digest. -/
def length (e : HashEntry) : Nat := (bits e.extent 15 0).toNat

/-- The entry stored at an offset. -/
def decodeAt (bs : Bytes) (offset : Nat) : HashEntry := ⟨bs.u32At offset, bs.u32At (offset + 4)⟩

/-- The stored form of an entry. -/
def encode (e : HashEntry) : Bytes := Bytes.u32 e.location ++ Bytes.u32 e.extent

@[simp] theorem length_encode (e : HashEntry) : e.encode.length = size := by
  simp [encode, size]

/-- An entry as text. -/
def text (e : HashEntry) : String :=
  s!"type {Text.hex 2 e.type} @ {Text.hex 4 e.offset} ({Text.decimal e.length} bytes)"

def toJson (e : HashEntry) : Json :=
  .record [("location", .nat e.location.toNat), ("size", .nat e.extent.toNat)]

def ofJson? (j : Json) : Option HashEntry := do
  let [location, extent] ← j.fields? ["location", "size"] | none
  return ⟨← Json.given? Json.asU32? location, ← Json.given? Json.asU32? extent⟩

end HashEntry

/-- **The table of digests.** -/
structure HashesTable where
  version : UInt32
  /-- The number of entries, in its lowest byte. -/
  count : UInt32
  /-- The number of dwords of the table. -/
  dwords : UInt32
  reserved : UInt32
  entries : List HashEntry
  storage : Bytes
  deriving DecidableEq

namespace HashesTable

/-- The number of bytes of the header. -/
def headerSize : Nat := 16

/-- **The number of bytes of the section** that starts here, CRC dword included. -/
def sectionLength? (bs : Bytes) : Option Nat :=
  (bs.readU32 8).toOption.map fun dwords => (dwords.toNat + 1) * 4

/-- The number of entries that a count dword stands for. -/
def entryCount (count : UInt32) : Nat := (bits count 7 0).toNat

/-- The offset of the storage behind a number of entries. -/
def storageOffset (entries : Nat) : Nat := headerSize + entries * HashEntry.size

/-- **The table in the contents of a section**, which has to be exactly as long as it says. -/
def decode (d : Bytes) : Except DecodeError HashesTable := do
  needBytes d headerSize
  if d.length = (d.u32At 8).toNat * 4 then
    let n := entryCount (d.u32At 4)
    needBytes d (storageOffset n)
    return {
      version := d.u32At 0
      count := d.u32At 4
      dwords := d.u32At 8
      reserved := d.u32At 12
      entries := (List.range n).map fun i => .decodeAt d (storageOffset i)
      storage := d.drop (storageOffset n) }
  else .error (.badLength d.length)

/-- The contents of a section with this table. -/
def encode (t : HashesTable) : Bytes :=
  Bytes.ofDwords [t.version, t.count, t.dwords, t.reserved] ++ t.entries.flatMap HashEntry.encode
    ++ t.storage

/-- **The digest of an entry**, unless it reaches in front of or past the storage. -/
def hash? (t : HashesTable) (e : HashEntry) : Option Bytes :=
  let start := storageOffset t.entries.length
  if start ≤ e.offset then (t.storage.slice? (e.offset - start) e.length).toOption else none

def toJson (t : HashesTable) : Json :=
  .record [("version", .nat t.version.toNat), ("count", .nat t.count.toNat),
    ("dw_size", .nat t.dwords.toNat), ("reserved", .nat t.reserved.toNat),
    ("entries", .list HashEntry.toJson t.entries), ("storage", Hex.toJson t.storage)]

def ofJson? (j : Json) : Option HashesTable := do
  let [version, count, dwords, reserved, entries, storage] ←
    j.fields? ["version", "count", "dw_size", "reserved", "entries", "storage"] | none
  return {
    version := ← Json.given? Json.asU32? version
    count := ← Json.given? Json.asU32? count
    dwords := ← Json.given? Json.asU32? dwords
    reserved := ← Json.given? Json.asU32? reserved
    entries := ← Json.given? (Json.asList? HashEntry.ofJson?) entries
    storage := ← Json.given? Hex.ofJson? storage }

end HashesTable

end FlashImage
