import FlashImage.Proofs.Bytes.Parts
import FlashImage.Toc.Table

/-!
# A table is the bytes it was read from

Reading a table takes whole records from the front of a byte string, and the table stands for just those
bytes: writing it gives them back, and reading them alone gives the same table (`Toc.decode_spec`). The
second fact is what makes a table that is found somewhere in an image the table of the section that is
cut out of the image for it.
-/

namespace FlashImage

/-! ### Records -/

namespace TocRecord

theorem encode_decodeAt {bs : Bytes} {offset : Nat} (h : offset + size ≤ bs.length) :
    (decodeAt bs offset).encode = bs.slice offset size :=
  Bytes.ofDwords_row 8 h

/-- A record is the same one in any string that starts with it. -/
theorem decodeAt_take {bs : Bytes} {n : Nat} (h : size ≤ n) :
    decodeAt (bs.take n) 0 = decodeAt bs 0 := by
  unfold size at h
  unfold decodeAt
  congr 1
  refine List.map_congr_left fun i hi => ?_
  have hi : i < 8 := List.mem_range.1 hi
  rw [Bytes.u32At, Bytes.u32At, Bytes.slice_take (by omega)]

end TocRecord

/-- A header that is not cut off is its record. -/
theorem TocHeader.decode_of_le {bs : Bytes} (h : TocRecord.size ≤ bs.length) :
    TocHeader.decode bs = .ok ⟨TocRecord.decodeAt bs 0⟩ := by
  rw [TocHeader.decode, TocRecord.decode, if_pos h]
  rfl

/-- The signature of a header is the dword it starts with. -/
theorem TocHeader.signature_decodeAt (bs : Bytes) (offset : Nat) :
    (TocHeader.mk (TocRecord.decodeAt bs offset)).signature = bs.u32At offset := by
  have hmask : mask 31 0 = -1 := by decide
  have hall (word : UInt32) : bits word 31 0 = word := by
    rw [bits, hmask, UInt32.and_neg_one]
    exact UInt32.shiftRight_zero
  exact hall (bs.u32At offset)

/-- A dword that a table starts with is the signature of its kind. -/
theorem TocKind.ofSignature?_eq_some_iff {dword : UInt32} {k : TocKind} :
    ofSignature? dword = some k ↔ dword = k.signature := by
  constructor
  · intro h
    rw [ofSignature?] at h
    have hfound := List.find?_some h
    exact (of_decide_eq_true hfound).symm
  · rintro rfl
    exact ofSignature?_signature k

namespace Toc

/-! ### Entries -/

/-- **What reading entries takes.** Of the records that are there, some number is taken, the end marker
included. They are written back as the bytes they were, and those bytes alone give the same entries. -/
theorem entriesFrom_spec (done : List TocEntry) (bs : Bytes) (count : Nat)
    (h : count * TocRecord.size ≤ bs.length) :
    ∃ n ≤ count, ∃ entries endMarker,
      entriesFrom done bs count = (done.reverse ++ entries, endMarker)
      ∧ (entries ++ endMarker.toList).length = n
      ∧ (entries ++ endMarker.toList).flatMap TocEntry.encode = bs.take (n * TocRecord.size)
      ∧ entriesFrom done (bs.take (n * TocRecord.size)) n = (done.reverse ++ entries, endMarker) := by
  induction count generalizing done bs with
  | zero => exact ⟨0, Nat.le_refl 0, [], none, by rw [List.append_nil]; rfl, rfl, rfl,
      by rw [List.append_nil]; rfl⟩
  | succ count ih =>
    rw [Nat.succ_mul] at h
    -- The first record alone decides whether the table ends.
    have hfirst : (TocEntry.mk (TocRecord.decodeAt bs 0)).encode = bs.take TocRecord.size :=
      TocRecord.encode_decodeAt (by omega)
    by_cases hend : (TocEntry.mk (TocRecord.decodeAt bs 0)).isEnd = true
    · -- The first record ends the table.
      have hend' : (TocEntry.mk (TocRecord.decodeAt (bs.take (1 * TocRecord.size)) 0)).isEnd = true := by
        rwa [TocRecord.decodeAt_take (by omega)]
      refine ⟨1, Nat.le_add_left 1 count, [], some ⟨TocRecord.decodeAt bs 0⟩, ?_, rfl, ?_, ?_⟩
      · rw [entriesFrom, if_pos hend, List.append_nil]
      · rw [List.nil_append, Option.toList_some, List.flatMap_singleton, hfirst, Nat.one_mul]
      · rw [entriesFrom, if_pos hend', List.append_nil, TocRecord.decodeAt_take (by omega)]
    · -- It is an entry, and the records behind it are read the same way.
      have hrest : count * TocRecord.size ≤ (bs.drop TocRecord.size).length := by
        rw [List.length_drop]
        omega
      obtain ⟨n, hn, entries, endMarker, hread, hlength, hencode, htake⟩ :=
        ih (⟨TocRecord.decodeAt bs 0⟩ :: done) (bs.drop TocRecord.size) hrest
      rw [List.reverse_cons, List.append_assoc, List.singleton_append] at hread htake
      have hsize : (n + 1) * TocRecord.size = TocRecord.size + n * TocRecord.size := by
        rw [Nat.succ_mul, Nat.add_comm]
      have hfront : TocRecord.decodeAt (bs.take ((n + 1) * TocRecord.size)) 0
          = TocRecord.decodeAt bs 0 := TocRecord.decodeAt_take (by omega)
      refine ⟨n + 1, Nat.succ_le_succ hn, ⟨TocRecord.decodeAt bs 0⟩ :: entries, endMarker, ?_, ?_, ?_, ?_⟩
      · rw [entriesFrom, if_neg hend, hread]
      · rw [List.cons_append, List.length_cons, hlength]
      · rw [List.cons_append, List.flatMap_cons, hfirst, hencode, hsize, List.take_add]
      · have hdrop : (bs.take ((n + 1) * TocRecord.size)).drop TocRecord.size
            = (bs.drop TocRecord.size).take (n * TocRecord.size) := by
          rw [List.drop_take, hsize, Nat.add_sub_cancel_left]
        rw [entriesFrom, hfront, if_neg hend, hdrop, htake]

/-! ### Whole tables -/

/-- There is no table without room for a header. -/
theorem decode_of_lt {bs : Bytes} (h : bs.length < TocRecord.size) :
    decode bs = .error (.truncated 0 bs.length) := by
  rw [decode, TocHeader.decode, TocRecord.decode, if_neg (Nat.not_le.2 h)]
  rfl

/-- **Reading a table** that has a header: it depends on the first dword whether there is a table, and of
which kind. -/
theorem decode_of_le {bs : Bytes} (h : TocRecord.size ≤ bs.length) : decode bs =
    match TocKind.ofSignature? (bs.u32At 0) with
    | none => .error (.badSignature 0 (bs.u32At 0))
    | some kind =>
      let (entries, endMarker) := entriesFrom [] (bs.drop TocRecord.size)
        (bs.length / TocRecord.size - 1)
      .ok ⟨kind, ⟨TocRecord.decodeAt bs 0⟩, entries, endMarker⟩ := by
  rw [decode, TocHeader.decode_of_le h, ← TocHeader.signature_decodeAt bs 0]
  rfl

/-- A table that was read has a header, and is of the kind that the first dword says. -/
theorem eq_of_decode {bs : Bytes} {t : Toc} (h : decode bs = .ok t) :
    TocRecord.size ≤ bs.length ∧ bs.u32At 0 = t.kind.signature ∧
      t.header = ⟨TocRecord.decodeAt bs 0⟩ ∧
      entriesFrom [] (bs.drop TocRecord.size) (bs.length / TocRecord.size - 1)
        = (t.entries, t.endMarker) := by
  by_cases hlength : TocRecord.size ≤ bs.length
  · rw [decode_of_le hlength] at h
    split at h
    · cases h
    · next kind hkind =>
      cases h
      exact ⟨hlength, TocKind.ofSignature?_eq_some_iff.1 hkind, rfl, rfl⟩
  · rw [decode_of_lt (Nat.not_le.1 hlength)] at h
    cases h

/-- **What reading a table takes**: its own size from the front, which is all that it depends on. -/
theorem decode_spec {bs : Bytes} {t : Toc} (h : decode bs = .ok t) :
    t.size ≤ bs.length ∧ t.encode = bs.take t.size ∧ decode (bs.take t.size) = .ok t := by
  obtain ⟨hlength, hkind, hheader, hread⟩ := eq_of_decode h
  -- Reading is bounded by the whole records that there are room for.
  have hrecords : bs.length / TocRecord.size * TocRecord.size ≤ bs.length :=
    Nat.div_mul_le_self _ _
  have hroom : (bs.length / TocRecord.size - 1) * TocRecord.size
      ≤ (bs.drop TocRecord.size).length := by
    rw [List.length_drop, Nat.sub_mul, Nat.one_mul]
    omega
  obtain ⟨n, hn, entries, endMarker, hentries, hcount, hencode, htake⟩ :=
    entriesFrom_spec [] (bs.drop TocRecord.size) _ hroom
  rw [List.reverse_nil, List.nil_append] at hentries htake
  obtain ⟨rfl, rfl⟩ := Prod.mk.inj (hentries.symm.trans hread)
  have hsize : t.size = TocRecord.size + n * TocRecord.size := by
    rw [size, records, hcount, Nat.add_mul, Nat.one_mul]
  have hfit : n * TocRecord.size ≤ (bs.length / TocRecord.size - 1) * TocRecord.size :=
    Nat.mul_le_mul_right _ hn
  rw [List.length_drop] at hroom
  refine ⟨by rw [hsize]; omega, ?_, ?_⟩
  · have hrecord : TocRecord.encode (TocRecord.decodeAt bs 0) = bs.take TocRecord.size :=
      TocRecord.encode_decodeAt (by omega)
    rw [encode, records, TocHeader.encode, hheader, hrecord, hencode, hsize, List.take_add]
  · -- Cut to its size, the table has as many records to be read as were read.
    have hcut : (bs.take (TocRecord.size + n * TocRecord.size)).length
        = TocRecord.size + n * TocRecord.size := by
      rw [List.length_take]
      omega
    have hleft : (TocRecord.size + n * TocRecord.size) / TocRecord.size - 1 = n := by
      unfold TocRecord.size
      omega
    have hdrop : (bs.take (TocRecord.size + n * TocRecord.size)).drop TocRecord.size
        = (bs.drop TocRecord.size).take (n * TocRecord.size) := by
      rw [List.drop_take, Nat.add_sub_cancel_left]
    have hfirst : Bytes.u32At (bs.take (TocRecord.size + n * TocRecord.size)) 0 = bs.u32At 0 := by
      rw [Bytes.u32At, Bytes.u32At, Bytes.slice_take (by unfold TocRecord.size; omega)]
    rw [hsize, decode_of_le (by omega), hfirst, TocKind.ofSignature?_eq_some_iff.2 hkind, hcut, hleft,
      hdrop, TocRecord.decodeAt_take (by omega), ← hheader]
    simp only [htake]

/-- **A table that was read** at an address stands there, and what is found is what is wrong with it. -/
theorem of_read {data : Bytes} {address : Nat} {t : Toc} {found : List Diagnostic}
    (h : read data address = .ok (t, found)) :
    address ≤ data.length ∧ decode (data.drop address) = .ok t ∧
      found = t.findings address ++ t.endFindings address data.length := by
  rw [read] at h
  split at h
  · next hle =>
    split at h
    · next t' ht =>
      cases h
      exact ⟨hle, ht, rfl⟩
    · cases h
  · cases h

end Toc

end FlashImage
