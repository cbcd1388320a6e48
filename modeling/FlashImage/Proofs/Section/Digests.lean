import FlashImage.Proofs.Section.WellFormed

/-!
# Digests are found where their entries say

An entry of a table of digests says where its digest is by an offset from the start of the whole table. A
table that was decoded keeps only what stands behind its entries, so looking a digest up takes the length of
everything in front off the offset first. That this comes to the same as looking into the whole table is
shown for any table, with its stored form in the place of the bytes it might come from (`hash?_eq`): the
storage is the end of the stored form, and a part of the end is a part of the whole.

A decoded table is stored as the very bytes it was decoded from, and has as many entries as it says. So
each digest is a part of these bytes (`hash?_of_decode`), and there is none for an offset in front of the
storage, or for a range that does not end within the bytes.
-/

namespace FlashImage.HashesTable

/-- What stands in front of the storage has the length that look-up takes off. -/
theorem encode_eq_front_append (t : HashesTable) :
    ∃ front, t.encode = front ++ t.storage ∧ front.length = storageOffset t.entries.length := by
  refine ⟨_, rfl, ?_⟩
  -- In front stand four dwords, and then two for each entry.
  simp [Bytes.ofDwords, List.length_flatMap, List.map_const', storageOffset, headerSize]
  omega

/-- **A digest is a part of the stored table**, at the offset that its entry gives. -/
theorem hash?_eq (t : HashesTable) (e : HashEntry) :
    t.hash? e = if storageOffset t.entries.length ≤ e.offset ∧ e.offset + e.length ≤ t.encode.length
      then some (t.encode.slice e.offset e.length) else none := by
  obtain ⟨front, hencode, hfront⟩ := t.encode_eq_front_append
  rw [hash?, hencode, ← hfront, List.length_append]
  by_cases hbehind : front.length ≤ e.offset
  · -- Behind the entries, an offset into the table is one into the storage, moved.
    obtain ⟨inner, hinner⟩ := Nat.exists_eq_add_of_le hbehind
    have hroom : inner + e.length ≤ t.storage.length
        ↔ front.length + inner + e.length ≤ front.length + t.storage.length := by omega
    rw [if_pos hbehind, hinner, Nat.add_sub_cancel_left, Bytes.slice?, Bytes.slice_append_right]
    by_cases hin : inner + e.length ≤ t.storage.length
    · rw [if_pos hin, if_pos ⟨Nat.le_add_right _ _, hroom.1 hin⟩]
      rfl
    · rw [if_neg hin, if_neg fun h => hin (hroom.2 h.2)]
      rfl
  · rw [if_neg hbehind, if_neg fun h => hbehind h.1]

/-- **A digest is a part of the bytes that a table was decoded from.** It is the part at the offset and of
the length that the entry gives, if it lies behind the header of 16 bytes and the entries of 8 bytes each
and ends within the table; and otherwise there is no digest. The entry need not be one of the table. -/
theorem hash?_of_decode {d : Bytes} {t : HashesTable} (h : decode d = .ok t) (e : HashEntry) :
    t.hash? e = if 16 + 8 * entryCount t.count ≤ e.offset ∧ e.offset + e.length ≤ d.length
      then some (d.slice e.offset e.length) else none := by
  have hfront : storageOffset t.entries.length = 16 + 8 * entryCount t.count := by
    rw [(wellFormed_of_decode h).count, storageOffset, Nat.mul_comm]
    rfl
  rw [hash?_eq, encode_of_decode h, hfront]

/-- A table of two digests of 32 bytes, the bytes of which count up from 0x80. -/
def digestTable : Bytes :=
  Bytes.ofDwords [1, 2, 24, 0, 0x01000020, 32, 0x02000040, 32]
    ++ (List.range 64).map fun i => UInt8.ofNat (0x80 + i)

/-- In a table of two digests, the second one is found, and nothing that starts among the entries or ends
behind the table. A digest of no bytes may stand at the very end. -/
theorem hash?_of_decode_digestTable : ∃ t, decode digestTable = .ok t ∧
    t.hash? ⟨0x02000040, 32⟩ = some ((List.range 32).map fun i => UInt8.ofNat (0xa0 + i)) ∧
    t.hash? ⟨31, 1⟩ = none ∧ t.hash? ⟨95, 2⟩ = none ∧ t.hash? ⟨96, 0⟩ = some [] := by
  have hread : (decode digestTable).toOption.map (fun t => entryCount t.count) = some 2 := by decide +kernel
  cases h : decode digestTable with
  | error e =>
    rw [h] at hread
    cases hread
  | ok t =>
    rw [h] at hread
    have hcount : entryCount t.count = 2 := Option.some.inj hread
    refine ⟨t, rfl, ?_⟩
    rw [hash?_of_decode h, hash?_of_decode h, hash?_of_decode h, hash?_of_decode h, hcount]
    decide +kernel

end FlashImage.HashesTable
