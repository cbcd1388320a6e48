import FlashImage.Proofs.BitField
import FlashImage.Proofs.Toc.Table

/-!
# Tables are written and read back

A table is read from the front of a byte string up to the first record whose type is that of an end
marker, or up to the end of the whole records there are. Put into bytes: the entries of a table are the
records of 32 bytes behind its header that do not start with `0xff`, up to the first one that does, which
is its end marker (`Toc.map_encode_of_decode`).

The other way round, a table is read back from what it is written as (`Toc.decode_encode_append`).
What stands behind it does not matter if the table has an end marker. If it has none, less than a whole
record may stand there, since another record would be another entry.

## Parts

* records one by one: what marks the end, and that they are read back;
* the records behind a header;
* tables that are written and read back, and both directions in one (`Toc.decode_encode_inverse`).
-/

namespace FlashImage

/-! ### Records -/

namespace TocRecord

@[simp] theorem length_encode (r : TocRecord) : r.encode.length = size := by
  simp [encode, Bytes.ofDwords, List.length_flatMap, List.map_const', r.length_dwords, size]

/-- **A record is read back**, whatever stands behind it. -/
theorem decodeAt_encode_append (r : TocRecord) (rest : Bytes) :
    decodeAt (r.encode ++ rest) 0 = r := by
  obtain ⟨dwords, hlength⟩ := r
  simp only [decodeAt, encode, mk.injEq, Nat.zero_add]
  refine List.ext_getElem (by simp [hlength]) fun i hi hi' => ?_
  rw [List.getElem_map, List.getElem_range, Bytes.u32At_ofDwords_append dwords rest hi']

/-- A record further on in a string is the same one further on in what is left of it. -/
theorem decodeAt_drop (bs : Bytes) (n offset : Nat) :
    decodeAt (bs.drop n) offset = decodeAt bs (n + offset) := by
  simp only [decodeAt, mk.injEq]
  refine List.map_congr_left fun i _ => ?_
  rw [Bytes.u32At_drop, Nat.add_assoc]

/-- **The whole records of a byte string**, each as its bytes. Left-over bytes at the end are none. -/
def wholes (bs : Bytes) : List Bytes :=
  (List.range (bs.length / size)).map fun i => bs.slice (i * size) size

/-- Whether the bytes of a record mark the end of a table: the first one is its type. -/
def marksEnd (record : Bytes) : Bool := record.head? = some TocEntry.endType

end TocRecord

/-- The byte of a dword that is written first is its topmost one. -/
theorem bits_top (word : UInt32) : (bits word 31 24).toUInt8 = UInt8.ofNat (word.toNat / 2 ^ 24) := by
  apply UInt8.toNat_inj.1
  rw [UInt32.toNat_toUInt8, toNat_bits word (by decide) (by decide), UInt8.toNat_ofNat', Nat.mod_mod]

/-- **The first byte of an entry is its type.** -/
theorem TocEntry.head?_encode (e : TocEntry) : e.encode.head? = some e.type := by
  obtain ⟨dwords, hlength⟩ := e
  obtain ⟨dword, rest, rfl⟩ := List.exists_cons_of_length_eq_add_one hlength
  have hfirst : UInt8.ofNat (dword.toNat / 256 / 256 / 256) = UInt8.ofNat (dword.toNat / 2 ^ 24) := by
    rw [Nat.div_div_eq_div_mul, Nat.div_div_eq_div_mul]
    rfl
  exact congrArg some (hfirst.trans (bits_top dword).symm)

/-- An entry marks the end of a table if its bytes do. -/
theorem TocEntry.marksEnd_encode (e : TocEntry) : TocRecord.marksEnd e.encode = e.isEnd := by
  simp only [TocRecord.marksEnd, head?_encode, isEnd, Option.some.injEq]

namespace Toc

/-! ### The records behind a header -/

/-- The record with a number in a row of records. -/
def entryAt (bs : Bytes) (i : Nat) : TocEntry := ⟨TocRecord.decodeAt bs (i * TocRecord.size)⟩

/-- **Reading entries takes the records up to the first end marker among them.** -/
theorem entriesFrom_eq (done : List TocEntry) (bs : Bytes) (count : Nat) :
    entriesFrom done bs count =
      (done.reverse ++ ((List.range count).map (entryAt bs)).takeWhile (!·.isEnd),
        ((List.range count).map (entryAt bs)).find? (·.isEnd)) := by
  induction count generalizing done bs with
  | zero => simp [entriesFrom]
  | succ count ih =>
    have hfirst : TocEntry.mk (TocRecord.decodeAt bs 0) = entryAt bs 0 := by
      rw [entryAt, Nat.zero_mul]
    -- The records behind the first one are those of what is left of the string.
    have hrest : (List.range count).map (entryAt (bs.drop TocRecord.size))
        = ((List.range count).map Nat.succ).map (entryAt bs) := by
      rw [List.map_map]
      refine List.map_congr_left fun i _ => ?_
      rw [entryAt, TocRecord.decodeAt_drop, Function.comp_apply, entryAt, Nat.succ_mul, Nat.add_comm]
    rw [List.range_succ_eq_map, List.map_cons, ← hrest, entriesFrom, hfirst]
    by_cases hend : (entryAt bs 0).isEnd = true
    · simp [hend]
    · simp [hend, ih]

/-- The records of a row are the whole records of the string, as many as it has room for. -/
theorem encode_entryAt (bs : Bytes) :
    ((List.range (bs.length / TocRecord.size)).map (entryAt bs)).map TocEntry.encode
      = TocRecord.wholes bs := by
  rw [List.map_map, TocRecord.wholes]
  refine List.map_congr_left fun i hi => ?_
  have hi := List.mem_range.1 hi
  refine TocRecord.encode_decodeAt ?_
  have hfit : (i + 1) * TocRecord.size ≤ bs.length / TocRecord.size * TocRecord.size :=
    Nat.mul_le_mul_right _ hi
  have hwhole := Nat.div_mul_le_self bs.length TocRecord.size
  rw [Nat.succ_mul] at hfit
  omega

/-- **The entries of a table are the records behind its header up to the first end marker**, which is
the end marker of the table. -/
theorem map_encode_of_decode {bs : Bytes} {t : Toc} (h : decode bs = .ok t) :
    t.entries.map TocEntry.encode
        = (TocRecord.wholes (bs.drop TocRecord.size)).takeWhile (!TocRecord.marksEnd ·) ∧
      t.endMarker.map TocEntry.encode
        = (TocRecord.wholes (bs.drop TocRecord.size)).find? TocRecord.marksEnd := by
  obtain ⟨hlength, -, -, hread⟩ := eq_of_decode h
  -- There are as many records behind the header as there are in all, less the header.
  have hcount : bs.length / TocRecord.size - 1 = (bs.drop TocRecord.size).length / TocRecord.size := by
    rw [List.length_drop]
    unfold TocRecord.size
    omega
  rw [hcount, entriesFrom_eq] at hread
  obtain ⟨hentries, hendMarker⟩ := Prod.mk.inj hread
  rw [← hentries, ← hendMarker, ← encode_entryAt]
  generalize (List.range _).map (entryAt _) = records
  constructor
  · rw [List.reverse_nil, List.nil_append, List.takeWhile_map]
    simp only [Function.comp_def, TocEntry.marksEnd_encode]
  · rw [List.find?_map]
    simp only [Function.comp_def, TocEntry.marksEnd_encode]

/-! ### Tables that are written and read back -/

/-- **A table that reading can give**: its kind is that of its header, no entry marks the end, and its end
marker does. -/
structure WellFormed (t : Toc) : Prop where
  kind : t.header.signature = t.kind.signature
  entries : ∀ e ∈ t.entries, e.isEnd = false
  endMarker : ∀ e, t.endMarker = some e → e.isEnd = true

/-- Reading gives nothing else. -/
theorem wellFormed_of_decode {bs : Bytes} {t : Toc} (h : decode bs = .ok t) : t.WellFormed := by
  obtain ⟨-, hkind, hheader, hread⟩ := eq_of_decode h
  rw [entriesFrom_eq] at hread
  obtain ⟨hentries, hendMarker⟩ := Prod.mk.inj hread
  refine ⟨by rw [hheader, TocHeader.signature_decodeAt, hkind], ?_, ?_⟩
  · rw [← hentries]
    intro e he
    have hall := List.all_eq_true.1 List.all_takeWhile e he
    simpa using hall
  · intro e he
    rw [← hendMarker] at he
    exact List.find?_some he

/-- Entries that were written are read back one after the other, as long as none marks the end. -/
theorem entriesFrom_encode_append {entries : List TocEntry} (h : ∀ e ∈ entries, e.isEnd = false)
    (done : List TocEntry) (rest : Bytes) (count : Nat) :
    entriesFrom done (entries.flatMap TocEntry.encode ++ rest) (entries.length + count)
      = entriesFrom (entries.reverse ++ done) rest count := by
  induction entries generalizing done with
  | nil =>
    rw [List.length_nil, Nat.zero_add]
    rfl
  | cons e entries ih =>
    have hcount : (e :: entries).length + count = (entries.length + count) + 1 := by
      rw [List.length_cons]
      omega
    have hdrop : (e.encode ++ (entries.flatMap TocEntry.encode ++ rest)).drop TocRecord.size
        = entries.flatMap TocEntry.encode ++ rest := List.drop_left' e.record.length_encode
    have hfirst : TocEntry.mk (TocRecord.decodeAt
        (e.encode ++ (entries.flatMap TocEntry.encode ++ rest)) 0) = e := by
      rw [TocEntry.encode, TocRecord.decodeAt_encode_append]
    rw [List.flatMap_cons, List.append_assoc, hcount, entriesFrom, hfirst, hdrop,
      if_neg (by simp [h e List.mem_cons_self]), ih fun e he => h e (List.mem_cons_of_mem _ he),
      List.reverse_cons, List.append_assoc]
    rfl

/-- The written form of a table has its size. -/
theorem length_encode (t : Toc) : t.encode.length = t.size := by
  have hrecords : (t.records.flatMap TocEntry.encode).length = t.records.length * TocRecord.size := by
    rw [List.length_flatMap]
    simp [TocEntry.encode, List.map_const']
  rw [encode, List.length_append, hrecords, TocHeader.encode, TocRecord.length_encode, size, Nat.add_mul,
    Nat.one_mul]

/-- **A table is read back from what it is written as.** Without an end marker there may not be another
whole record behind it. -/
theorem decode_encode_append {t : Toc} (ht : t.WellFormed) {rest : Bytes}
    (hrest : t.endMarker = none → rest.length < TocRecord.size) :
    decode (t.encode ++ rest) = .ok t := by
  have hsplit : t.encode ++ rest = t.header.record.encode ++
      (t.entries.flatMap TocEntry.encode ++ (t.endMarker.toList.flatMap TocEntry.encode ++ rest)) := by
    simp only [encode, TocHeader.encode, records, List.flatMap_append, List.append_assoc]
  have hlength : (t.encode ++ rest).length = (1 + t.records.length) * TocRecord.size + rest.length := by
    rw [List.length_append, length_encode, size]
  have hcount : (t.encode ++ rest).length / TocRecord.size - 1
      = t.entries.length + (t.endMarker.toList.length + rest.length / TocRecord.size) := by
    rw [hlength, records, List.length_append]
    unfold TocRecord.size
    omega
  have hheader : TocHeader.mk (TocRecord.decodeAt (t.encode ++ rest) 0) = t.header := by
    rw [hsplit, TocRecord.decodeAt_encode_append]
  have hkind : (t.encode ++ rest).u32At 0 = t.kind.signature := by
    rw [← TocHeader.signature_decodeAt, hheader, ht.kind]
  have hread : entriesFrom [] ((t.encode ++ rest).drop TocRecord.size)
      ((t.encode ++ rest).length / TocRecord.size - 1) = (t.entries, t.endMarker) := by
    rw [hcount, hsplit, List.drop_left' t.header.record.length_encode,
      entriesFrom_encode_append ht.entries]
    -- Behind the entries there is an end marker, or no whole record.
    cases hend : t.endMarker with
    | some e =>
      have hfirst : TocEntry.mk (TocRecord.decodeAt (e.encode ++ rest) 0) = e := by
        rw [TocEntry.encode, TocRecord.decodeAt_encode_append]
      have hone : [e].length + rest.length / TocRecord.size = rest.length / TocRecord.size + 1 :=
        Nat.add_comm _ _
      rw [Option.toList_some, List.flatMap_singleton, hone, entriesFrom, hfirst,
        if_pos (ht.endMarker e hend), List.append_nil, List.reverse_reverse]
    | none =>
      rw [Option.toList_none, List.length_nil, Nat.div_eq_of_lt (hrest hend), entriesFrom,
        List.append_nil, List.reverse_reverse]
  have hroom : TocRecord.size ≤ (t.encode ++ rest).length := by
    rw [hlength, Nat.add_mul, Nat.one_mul]
    omega
  rw [decode_of_le hroom, TocKind.ofSignature?_eq_some_iff.2 hkind, hheader]
  simp only [hread]

/-! ### The result -/

/-- **Reading and writing tables undo each other.** What was read is written back as the bytes it took,
and its entries and its end marker are the records that stand there. What is written is read back, with
any bytes behind it if the table has an end marker, and with less than a record otherwise. -/
theorem decode_encode_inverse :
    (∀ (bs : Bytes) (t : Toc), decode bs = .ok t →
      t.size ≤ bs.length ∧ t.encode = bs.take t.size ∧ t.WellFormed ∧
      t.entries.map TocEntry.encode
        = (TocRecord.wholes (bs.drop TocRecord.size)).takeWhile (!TocRecord.marksEnd ·) ∧
      t.endMarker.map TocEntry.encode
        = (TocRecord.wholes (bs.drop TocRecord.size)).find? TocRecord.marksEnd) ∧
    ∀ (t : Toc) (rest : Bytes), t.WellFormed →
      (t.endMarker = none → rest.length < TocRecord.size) → decode (t.encode ++ rest) = .ok t := by
  refine ⟨fun bs t h => ?_, fun t rest ht hrest => decode_encode_append ht hrest⟩
  obtain ⟨hsize, hencode, -⟩ := decode_spec h
  exact ⟨hsize, hencode, wellFormed_of_decode h, map_encode_of_decode h⟩

/-- **A small table**: one entry, an end marker, and half a record of erased flash behind it. -/
def smallTable : Bytes :=
  Bytes.ofDwords [TocKind.itoc.signature, 0, 0, 0, 0, 0, 0, 0]
    ++ Bytes.ofDwords [0x7f000001, 0, 0, 0, 0, 122, 0, 0] ++ List.replicate 48 0xff

/-- The small table is read from the front of its bytes, and read back with others behind it. -/
theorem decode_encode_inverse_smallTable : ∃ t, decode smallTable = .ok t ∧
    t.encode = smallTable.take 96 ∧ t.entries.length = 1 ∧ t.endMarker.isSome ∧
    decode (t.encode ++ [1, 2, 3]) = .ok t := by
  have hread : (decode smallTable).toOption.map (fun t => (t.entries.length, t.endMarker.isSome))
      = some (1, true) := by decide +kernel
  cases h : decode smallTable with
  | error e =>
    rw [h] at hread
    cases hread
  | ok t =>
    rw [h] at hread
    obtain ⟨hentries, hend⟩ := Prod.mk.inj (Option.some.inj hread)
    obtain ⟨-, hencode, ht, -, -⟩ := decode_encode_inverse.1 smallTable t h
    have hsize : t.size = 96 := by
      obtain ⟨e, he⟩ := Option.isSome_iff_exists.1 hend
      rw [size, records, List.length_append, hentries, he]
      rfl
    refine ⟨t, rfl, hsize ▸ hencode, hentries, hend, ?_⟩
    refine decode_encode_inverse.2 t [1, 2, 3] ht fun hnone => ?_
    rw [hnone] at hend
    cases hend

end Toc

end FlashImage
