import FlashImage.Diagnostic
import FlashImage.Toc.Record

/-!
# Tables of contents

A table is a header and entries up to an end marker, or up to the end of the bytes if there is none.
Reading a table keeps every entry it has; what is wrong with it becomes findings: a failed check of
the header or of an entry, an entry that repeats the type and address of an earlier one, an entry in
front of the one before it, device data in the image's own table, and a missing end marker.
-/

namespace FlashImage

/-- **A table of contents**, with its end marker if it has one. -/
structure Toc where
  kind : TocKind
  header : TocHeader
  entries : List TocEntry
  endMarker : Option TocEntry
  deriving DecidableEq

namespace Toc

/-! ### Stored form -/

/-- **Entries up to the end marker**, after those read so far in reverse, from `count` whole records. -/
def entriesFrom (done : List TocEntry) (bs : Bytes) : (count : Nat) → List TocEntry × Option TocEntry
  | 0 => (done.reverse, none)
  | count + 1 =>
    let e : TocEntry := ⟨TocRecord.decodeAt bs 0⟩
    if e.isEnd then (done.reverse, some e)
    else entriesFrom (e :: done) (bs.drop TocRecord.size) count

/-- **The table at the front of a byte string.** -/
def decode (bs : Bytes) : Except TocError Toc :=
  match TocHeader.decode bs with
  | .error _ => .error (.truncated 0 bs.length)
  | .ok header =>
    match header.kind? with
    | none => .error (.badSignature 0 header.signature)
    | some kind =>
      let (entries, endMarker) := entriesFrom [] (bs.drop TocRecord.size)
        (bs.length / TocRecord.size - 1)
      .ok ⟨kind, header, entries, endMarker⟩

/-- The records of a table after its header. -/
def records (t : Toc) : List TocEntry := t.entries ++ t.endMarker.toList

/-- The number of bytes of a stored table. -/
def size (t : Toc) : Nat := (1 + t.records.length) * TocRecord.size

/-- The stored form of a table. -/
def encode (t : Toc) : Bytes := t.header.encode ++ t.records.flatMap TocEntry.encode

/-! ### Checks -/

/-- **The first failed check** among the header and the entries. -/
def status (t : Toc) : CrcStatus :=
  ((t.header.status :: t.entries.map TocEntry.status).find? CrcStatus.isInvalid).getD .valid

/-- What is wrong with the header of a table at an address. -/
def headerFindings (t : Toc) (address : Nat) : List Diagnostic :=
  match t.header.status with
  | .invalid stored computed => [.badHeaderCrc t.kind address stored computed]
  | _ => []

/-- **What is wrong with one entry**, given the types and addresses of those before it. -/
def entryFindings (kind : TocKind) (index : Nat) (earlier : List (UInt8 × Nat)) (e : TocEntry) :
    List Diagnostic :=
  (match e.status with
    | .invalid stored computed => [.badEntryCrc kind index stored computed]
    | _ => []) ++
  (if earlier.contains (e.type, e.address) then [.duplicateEntry kind index e.code.name] else []) ++
  (match earlier.getLast? with
    | some (_, address) =>
      if e.address < address then [.outOfOrderEntry kind index e.address] else []
    | none => []) ++
  (if kind = .itoc && e.deviceData then [.deviceDataInItoc index e.code.name] else [])

/-- What is wrong with a table at an address, apart from its end: the header first, then the entries
in order. -/
def findings (t : Toc) (address : Nat) : List Diagnostic :=
  let keys := t.entries.map fun e => (e.type, e.address)
  t.headerFindings address ++
    t.entries.zipIdx.flatMap fun (e, i) => entryFindings t.kind i (keys.take i) e

/-- The finding about a table that has no end marker in an image of `imageSize` bytes. -/
def endFindings (t : Toc) (address imageSize : Nat) : List Diagnostic :=
  match t.endMarker with
  | some _ => []
  | none =>
    [.truncated s!"{t.kind.name} entries" address (t.size + TocRecord.size) imageSize]

/-- **Reading the table at an address** of an image, with everything that is wrong with it. -/
def read (data : Bytes) (address : Nat) : Except TocError (Toc × List Diagnostic) :=
  if address ≤ data.length then
    match decode (data.drop address) with
    | .ok t => .ok (t, t.findings address ++ t.endFindings address data.length)
    | .error e => .error (e.relocate address data.length)
  else .error (.truncated address data.length)

/-! ### JSON -/

def toJson (t : Toc) : Json :=
  .record [("kind", t.kind.toJson), ("header", t.header.toJson),
    ("entries", .list TocEntry.toJson t.entries), ("end", .option TocEntry.toJson t.endMarker)]

def ofJson? (j : Json) : Option Toc := do
  let [kind, header, entries, endMarker] ← j.fields? ["kind", "header", "entries", "end"] | none
  return {
    kind := ← Json.given? TocKind.ofJson? kind
    header := ← Json.given? TocHeader.ofJson? header
    entries := ← Json.given? (Json.asList? TocEntry.ofJson?) entries
    endMarker := ← Json.optional? TocEntry.ofJson? endMarker }

end Toc

end FlashImage
