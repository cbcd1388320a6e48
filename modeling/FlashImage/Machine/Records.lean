import FlashImage.Machine.Access
import FlashImage.Pointer
import FlashImage.Toc.Table

/-!
# Pointers and tables, step by step

The operations on the records of an image, with each access to a part of them as the program makes it: the
part of a record that its CRC covers, the fields of entries, their sizes and addresses, which are counted in
dwords, and the records of a table one after the other, up to the one that ends it.
-/

namespace FlashImage.Machine

/-! ### CRCs -/

/-- The software CRC, with its padding cut from three zero bytes. -/
def software (data : Bytes) : Run UInt16 := do
  let missing ← sub 4 (data.length % 4)
  let zeros ← sliceTo (List.replicate 3 0) (missing % 4)
  return ~~~(Crc.run (Crc.run 0xf6aa data) zeros)

/-! ### Pointers -/

def pointerCrc (p : Pointer) : Run UInt16 := do
  return Crc.hardware (← sliceTo p.encode 6)

def pointerStatus (p : Pointer) : Run CrcStatus := do
  if p.isAbsent then return .notApplicable else return .check p.crc (← pointerCrc p)

def badRecords (ps : Pointers) : Run (List (Nat × CrcStatus)) := do
  let statuses ← ps.records.zipIdx.mapM fun (p, i) => do return (i, ← pointerStatus p)
  return statuses.filter (·.2.isInvalid)

def pointersStatus (ps : Pointers) : Run CrcStatus := do
  match ← badRecords ps with
  | [] => return .valid
  | (_, status) :: _ => return status

/-! ### Headers and entries -/

def headerCrc (h : TocHeader) : Run UInt16 := do
  let f := TocHeader.headerCrcField
  let dword ← element h.record.dwords f.dword
  let covered ← mask f.msb f.lsb
  software (Bytes.ofDwords (h.record.dwords.set f.dword (dword &&& ~~~covered)))

def headerStatus (h : TocHeader) : Run CrcStatus := do
  return .check (← field TocHeader.headerCrcField h.record.dwords).toUInt16 (← headerCrc h)

def entryStatus (e : TocEntry) : Run CrcStatus := do
  let covered ← sliceTo e.encode TocEntry.coveredLength
  return .check (← field TocEntry.entryCrcField e.record.dwords).toUInt16 (← software covered)

def entryType (e : TocEntry) : Run UInt8 := do
  return (← field TocEntry.typeField e.record.dwords).toUInt8

def entryHas (f : BitField) (e : TocEntry) : Run Bool := do
  return (← field f e.record.dwords) ≠ 0

def entrySize (e : TocEntry) : Run Nat := do
  mul (← field TocEntry.sizeField e.record.dwords).toNat 4

def entryAddress (e : TocEntry) : Run Nat := do
  mul (← field TocEntry.addressField e.record.dwords).toNat 4

/-! ### Records field by field -/

/-- The bits of dword number `i` that some field covers. -/
def coveredMask (fields : List BitField) (i : Nat) : Run UInt32 :=
  (fields.filter (·.dword = i)).foldlM (fun m f => do return m ||| (← mask f.msb f.lsb)) 0

/-- The dwords of a record with all bits cleared that some field covers. -/
def reserved (fields : List BitField) (r : TocRecord) : Run (List UInt32) :=
  r.dwords.zipIdx.mapM fun x => do return x.1 &&& ~~~(← coveredMask fields x.2)

def headerJson (h : TocHeader) : Run Json := do
  let get (f : BitField) := field f h.record.dwords
  return .record [("signature", .nat (← get TocHeader.signatureField).toNat),
    ("version", .nat (← get TocHeader.versionField).toUInt8.toNat),
    ("entries_crc", .nat (← get TocHeader.entriesCrcField).toUInt16.toNat),
    ("header_crc", .nat (← get TocHeader.headerCrcField).toUInt16.toNat),
    ("reserved", .list (fun d => .nat d.toNat) (← reserved TocHeader.fields h.record))]

def entryJson (e : TocEntry) : Run Json := do
  let get (f : BitField) := field f e.record.dwords
  let type ← entryType e
  return .record [("type", .nat type.toNat), ("type_name", .text (SectionCode.name type.toUInt16)),
    ("size_dwords", .nat (← get TocEntry.sizeField).toNat),
    ("zipped_image", .bool (← entryHas TocEntry.zippedField e)),
    ("cache_line_crc", .bool (← entryHas TocEntry.lineCrcField e)),
    ("param0", .nat (← get TocEntry.param0Field).toNat), ("param1", .nat (← get TocEntry.param1Field).toNat),
    ("version", .nat (← get TocEntry.versionField).toUInt16.toNat),
    ("flash_addr_dwords", .nat (← get TocEntry.addressField).toNat),
    ("relative_addr", .bool (← entryHas TocEntry.relativeField e)),
    ("section_crc", .nat (← get TocEntry.sectionCrcField).toUInt16.toNat),
    ("no_crc", .bool (← entryHas TocEntry.noCrcField e)),
    ("device_data", .bool (← entryHas TocEntry.deviceDataField e)),
    ("encrypted", .bool (← entryHas TocEntry.encryptedField e)),
    ("entry_crc", .nat (← get TocEntry.entryCrcField).toUInt16.toNat),
    ("reserved", .list (fun d => .nat d.toNat) (← reserved TocEntry.fields e.record))]

/-! ### Tables -/

def entriesFrom (done : List TocEntry) : List Bytes → Run (List TocEntry × Option TocEntry)
  | [] => .ok (done.reverse, none)
  | record :: rest =>
    match TocEntry.decode record with
    | .error _ => .ok (done.reverse, none)
    | .ok e => do
      if (← entryType e) = TocEntry.endType then return (done.reverse, some e)
      else entriesFrom (e :: done) rest

def decodeToc (bs : Bytes) : Step TocError Toc :=
  match TocHeader.decode bs with
  | .error _ => throw (.truncated 0 bs.length)
  | .ok header => do
    let signature ← field TocHeader.signatureField header.record.dwords
    match TocKind.ofSignature? signature with
    | none => throw (.badSignature 0 signature)
    | some kind =>
      let rest ← sliceFrom bs TocRecord.size
      let (entries, endMarker) ← entriesFrom [] (chunks TocRecord.size rest)
      return ⟨kind, header, entries, endMarker⟩

def tocSize (t : Toc) : Run Nat := do
  mul (← add (← add 1 t.entries.length) t.endMarker.toList.length) TocRecord.size

def tocStatus (t : Toc) : Run CrcStatus := do
  let header ← headerStatus t.header
  let entries ← t.entries.mapM entryStatus
  return ((header :: entries).find? CrcStatus.isInvalid).getD .valid

/-! ### Findings -/

/-- What is wrong with one entry, given the types and addresses of those before it. -/
def entryFindings (kind : TocKind) (index : Nat) (earlier : List (UInt8 × Nat)) (e : TocEntry) :
    Run (List Diagnostic) := do
  let status ← entryStatus e
  let type ← entryType e
  let address ← entryAddress e
  let deviceData ← entryHas TocEntry.deviceDataField e
  let typeName := SectionCode.name type.toUInt16
  return (match status with
      | .invalid stored computed => [.badEntryCrc kind index stored computed]
      | _ => []) ++
    (if earlier.contains (type, address) then [.duplicateEntry kind index typeName] else []) ++
    (match earlier.getLast? with
      | some (_, last) => if address < last then [.outOfOrderEntry kind index address] else []
      | none => []) ++
    (if kind = .itoc && deviceData then [.deviceDataInItoc index typeName] else [])

def findings (t : Toc) (address : Nat) : Run (List Diagnostic) := do
  let header ← headerStatus t.header
  let keys ← t.entries.mapM fun e => do return (← entryType e, ← entryAddress e)
  let entries ← t.entries.zipIdx.mapM fun x => entryFindings t.kind x.2 (keys.take x.2) x.1
  return (match header with
      | .invalid stored computed => [.badHeaderCrc t.kind address stored computed]
      | _ => []) ++ entries.flatten

/-- The table at an address, with everything that is wrong with it. -/
def readToc (data : Bytes) (address : Nat) : Step TocError (Toc × List Diagnostic) :=
  if address ≤ data.length then do
    let t ← (decodeToc (data.drop address)).adapt (·.relocate address data.length)
    let found ← (findings t address : Run _)
    match t.endMarker with
    | some _ => return (t, found)
    | none =>
      let len ← add (← tocSize t) TocRecord.size
      return (t, found ++ [.truncated s!"{t.kind.name} entries" address len data.length])
  else throw (.truncated address data.length)

end FlashImage.Machine
