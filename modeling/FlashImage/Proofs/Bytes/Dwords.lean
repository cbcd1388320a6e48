import FlashImage.Proofs.Machine.Access

/-!
# Rows of dwords

A row of dwords is read as one part of the buffer, four bytes for each of them, which is then cut into
dwords. Where there is room for the part, the dwords are those that would be read one by one, and they are
written back as the very same bytes (`Bytes.readDwords_of_le`); where there is none, nothing is read
(`Bytes.readDwords_of_lt`).

The length of the part is a product that nothing tests. A row that the buffer holds is not longer than the
buffer, so its length is a word, and it is read; so is a row that was written (`Bytes.readDwords_ofDwords`). A
row that does not fit is refused as long as its length is a word, that is for counts below `2 ^ 62`. For larger
counts the product ends the program before the row is compared with the buffer.
-/

namespace FlashImage

namespace Bytes

/-! ### Rows and their parts -/

/-- A dword of a part is a dword of the buffer further on. -/
theorem u32At_slice (bs : Bytes) (offset : Nat) {len i : Nat} (h : i + 4 ≤ len) :
    u32At (bs.slice offset len) i = bs.u32At (offset + i) := by
  rw [slice, u32At_take h, u32At_drop]

/-- A part of a whole number of dwords is cut into the dwords that stand there. -/
theorem toDwords_slice {bs : Bytes} {offset count : Nat} (h : offset + count * 4 ≤ bs.length) :
    toDwords (bs.slice offset (count * 4))
      = (List.range count).map fun i => bs.u32At (offset + i * 4) := by
  rw [Machine.toDwords_eq, Machine.chunks, List.map_map, length_slice_of_le h,
    Nat.mul_div_cancel count (by decide)]
  refine List.map_congr_left fun i hi => u32At_slice bs offset ?_
  have hi : i < count := List.mem_range.1 hi
  omega

variable {bs : Bytes} {offset count : Nat}

/-- **A row that the buffer holds is read**, dword by dword. -/
theorem readDwords_of_le (h : offset + count * 4 ≤ bs.length) :
    bs.readDwords offset count = .ok ((List.range count).map fun i => bs.u32At (offset + i * 4)) := by
  rw [readDwords, slice?_of_le h, ok_bind, toDwords_slice h]
  rfl

/-- **A row that does not lie in the buffer is not read.** -/
theorem readDwords_of_lt (h : bs.length < offset + count * 4) :
    bs.readDwords offset count = .error (.shortBuffer offset (count * 4) bs.length) := by
  rw [readDwords, slice?_of_lt h]
  rfl

/-- **What was written as a row is read back.** -/
theorem readDwords_ofDwords (dwords : List UInt32) :
    (ofDwords dwords).readDwords 0 dwords.length = .ok dwords := by
  have hroom : 0 + dwords.length * 4 ≤ (ofDwords dwords).length := by
    rw [length_ofDwords]
    omega
  rw [readDwords_of_le hroom]
  refine congrArg Except.ok (List.ext_getElem (by simp) fun i _ hi => ?_)
  have hdword := u32At_ofDwords_append dwords [] hi
  rw [List.append_nil] at hdword
  rw [List.getElem_map, List.getElem_range, Nat.zero_add, hdword]

end Bytes

namespace Machine

/-! ### Reading one by one -/

variable {bs : Bytes} {offset count : Nat}

/-- **What reading a row of dwords does.** A row that the buffer holds is read as its dwords would be, one by
one. A row that it does not hold is refused if its length in bytes is a word, and the program ends if it is
not. -/
structure ReadsEach (bs : Bytes) (offset count : Nat) : Prop where
  inside : offset + 4 * count ≤ bs.length →
    ∃ dwords : List UInt32, readDwords bs offset count = settled (.ok dwords) ∧ dwords.length = count ∧
      (∀ i (_ : i < dwords.length), readU32 bs (offset + 4 * i) = settled (.ok dwords[i])) ∧
      Bytes.ofDwords dwords = bs.slice offset (4 * count)
  outside : bs.length < offset + 4 * count → 4 * count < 2 ^ 64 →
    readDwords bs offset count = settled (.error (.shortBuffer offset (4 * count) bs.length))
  faults : 2 ^ 64 ≤ 4 * count → (readDwords bs offset count).run = .error .overflow

theorem readsEach (h : bs.length < 2 ^ 64) (offset count : Nat) : ReadsEach bs offset count where
  inside hin := by
    rw [Nat.mul_comm] at hin
    refine ⟨(List.range count).map fun i => bs.u32At (offset + i * 4), ?_, by simp, fun i hi => ?_, ?_⟩
    · rw [readDwords_eq h (by omega), Bytes.readDwords_of_le hin]
    · have hi : i < count := by simpa using hi
      rw [List.getElem_map, List.getElem_range, Nat.mul_comm, readU32_eq h, Bytes.readU32_of_le (by omega)]
    · rw [Nat.mul_comm]
      exact Bytes.ofDwords_row count hin
  outside hout hcount := by
    rw [Nat.mul_comm] at hout hcount ⊢
    rw [readDwords_eq h hcount, Bytes.readDwords_of_lt hout]
  faults hcount := by
    rw [Nat.mul_comm] at hcount
    exact readDwords_fault hcount

/-- A row that was written is read back, since it is as long as some buffer. -/
theorem readDwords_ofDwords {dwords : List UInt32} (h : (Bytes.ofDwords dwords).length < 2 ^ 64) :
    readDwords (Bytes.ofDwords dwords) 0 dwords.length = settled (.ok dwords) := by
  have hcount : dwords.length * 4 < 2 ^ 64 := by
    rw [Bytes.length_ofDwords] at h
    omega
  rw [readDwords_eq h hcount, Bytes.readDwords_ofDwords]

/-- **A row is read as its dwords would be, one by one, unless its length in bytes is not a word.** Then it is
not refused, as it would have to be, but the program ends. A row that was written is always read back. -/
theorem readDwords_unless_overflow (h : bs.length < 2 ^ 64) (offset count : Nat) :
    ReadsEach bs offset count ∧
    ((∃ dwords, readDwords bs offset count = settled (.ok dwords)) ↔ offset + 4 * count ≤ bs.length) ∧
    (∀ dwords : List UInt32, (Bytes.ofDwords dwords).length < 2 ^ 64 →
      readDwords (Bytes.ofDwords dwords) 0 dwords.length = settled (.ok dwords)) := by
  refine ⟨readsEach h offset count, ⟨fun ⟨dwords, hdwords⟩ => ?_, fun hin => ?_⟩, fun _ => readDwords_ofDwords⟩
  · -- Neither a refusal nor a fault is a row.
    refine Nat.le_of_not_lt fun hout => ?_
    rcases Nat.lt_or_ge (4 * count) (2 ^ 64) with hcount | hcount
    · cases hdwords.symm.trans ((readsEach h offset count).outside hout hcount)
    · cases (congrArg ExceptT.run hdwords).symm.trans ((readsEach h offset count).faults hcount)
  · obtain ⟨dwords, hread, -⟩ := (readsEach h offset count).inside hin
    exact ⟨dwords, hread⟩

/-- Two dwords are read and written back, a third one is not there, and a count that is too large by `2 ^ 62`
ends the program. -/
theorem readDwords_unless_overflow_twoDwords :
    let bs : Bytes := [0x12, 0x34, 0x56, 0x78, 0xde, 0xad, 0xbe, 0xef]
    bs.length < 2 ^ 64 ∧
    (0 + 4 * 2 ≤ bs.length ∧ ∃ dwords, readDwords bs 0 2 = settled (.ok dwords) ∧ dwords.length = 2 ∧
      Bytes.ofDwords dwords = bs) ∧
    (bs.length < 4 + 4 * 2 ∧ readDwords bs 4 2 = settled (.error (.shortBuffer 4 8 8))) ∧
    (2 ^ 64 ≤ 4 * (2 ^ 62 + 1) ∧ (readDwords bs 4 (2 ^ 62 + 1)).run = .error .overflow) ∧
    readDwords (Bytes.ofDwords [0x12345678, 0xdeadbeef]) 0 2 = settled (.ok [0x12345678, 0xdeadbeef]) := by
  intro bs
  have hsize : bs.length < 2 ^ 64 := by decide
  obtain ⟨heach, -, hback⟩ := readDwords_unless_overflow hsize 0 2
  obtain ⟨dwords, hread, hlength, -, hbytes⟩ := heach.inside (by decide)
  have hshort := (readDwords_unless_overflow hsize 4 2).1
  have hlong := (readDwords_unless_overflow hsize 4 (2 ^ 62 + 1)).1
  exact ⟨hsize, ⟨by decide, dwords, hread, hlength, hbytes⟩,
    ⟨by decide, hshort.outside (by decide) (by decide)⟩, ⟨by decide, hlong.faults (by decide)⟩,
    hback [0x12345678, 0xdeadbeef] (by decide)⟩

/-- A row of `2 ^ 62` dwords does not lie in a buffer without bytes. It is not refused for that: the program
ends at the product that is its length. -/
theorem overflowing_row_not_refused :
    2 ^ 62 < 2 ^ 64 ∧ ([] : Bytes).length < 0 + 4 * 2 ^ 62 ∧
      (readDwords [] 0 (2 ^ 62)).run = .error .overflow ∧
      ∀ offset len size, readDwords [] 0 (2 ^ 62) ≠ settled (.error (.shortBuffer offset len size)) := by
  have hfault : (readDwords [] 0 (2 ^ 62)).run = .error .overflow := readDwords_fault (by decide)
  refine ⟨by decide, by decide, hfault, fun offset len size h => ?_⟩
  rw [h] at hfault
  cases hfault

end Machine

end FlashImage
