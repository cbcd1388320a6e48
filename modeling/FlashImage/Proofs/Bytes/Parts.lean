import FlashImage.Bytes.Access
import Mathlib.Algebra.Group.Nat.Defs

/-!
# Joining the parts of a byte string

A decoder takes a byte string apart at fixed offsets, and an encoder writes the parts one behind the
other. Two facts carry every proof that nothing is lost on the way:

* a word read at an offset and written again is the part of the string at that offset
  (`u16_u16At`, `u32_u32At`, `u64_u64At`);
* the first bytes of a string and the part behind them are again its first bytes
  (`take_append_slice`), so a row of neighbouring parts collapses from the left.

The other way round, what was written is read back, whatever stands behind it (`u32At_ofDwords_append`).
-/

namespace FlashImage.Bytes

/-! ### Parts -/

@[simp] theorem slice_zero_left (bs : Bytes) (len : Nat) : bs.slice 0 len = bs.take len := rfl

@[simp] theorem slice_zero_right (bs : Bytes) (offset : Nat) : bs.slice offset 0 = [] := by
  simp [slice]

/-- The first bytes and the part behind them are the first bytes up to the end of the part. -/
theorem take_append_slice (bs : Bytes) (offset len : Nat) :
    bs.take offset ++ bs.slice offset len = bs.take (offset + len) := by
  rw [slice, List.take_add]

/-- A part inside the string has the length asked for. -/
theorem length_slice_of_le {bs : Bytes} {offset len : Nat} (h : offset + len ≤ bs.length) :
    (bs.slice offset len).length = len := by
  rw [length_slice]
  omega

/-- A part of the first bytes is the same part of the whole string. -/
theorem slice_take {bs : Bytes} {offset len n : Nat} (h : offset + len ≤ n) :
    slice (bs.take n) offset len = bs.slice offset len := by
  rw [slice, slice, List.drop_take, List.take_take]
  congr 1
  omega

/-- A dword of the first bytes is the same dword of the whole string. -/
theorem u32At_take {bs : Bytes} {offset n : Nat} (h : offset + 4 ≤ n) :
    u32At (bs.take n) offset = bs.u32At offset := by
  rw [u32At, u32At, slice_take h]

/-- A part, position by position. -/
theorem getElem?_slice {bs : Bytes} {offset len k : Nat} (h : k < len) :
    (bs.slice offset len)[k]? = bs[offset + k]? := by
  rw [slice, List.getElem?_take_of_lt h, List.getElem?_drop]

/-- A part is known by its bytes. -/
theorem slice_eq_of_getElem? {bs part : Bytes} {offset : Nat} (hroom : offset + part.length ≤ bs.length)
    (h : ∀ k < part.length, bs[offset + k]? = part[k]?) : bs.slice offset part.length = part := by
  have hlength : (bs.slice offset part.length).length = part.length := length_slice_of_le hroom
  refine List.ext_getElem? fun k => ?_
  by_cases hk : k < part.length
  · rw [getElem?_slice hk, h k hk]
  · rw [List.getElem?_eq_none (by omega), List.getElem?_eq_none (by omega)]

/-- A part that a buffer holds is handed out. -/
theorem slice?_of_le {bs : Bytes} {offset len : Nat} (h : offset + len ≤ bs.length) :
    bs.slice? offset len = .ok (bs.slice offset len) := if_pos h

/-- A part that does not lie in a buffer is refused. -/
theorem slice?_of_lt {bs : Bytes} {offset len : Nat} (h : bs.length < offset + len) :
    bs.slice? offset len = .error (.shortBuffer offset len bs.length) := if_neg (Nat.not_le.2 h)

/-- A string with another laid over it, position by position. -/
theorem getElem?_overlay {bs src : Bytes} {offset : Nat} (h : offset + src.length ≤ bs.length)
    (p : Nat) : (bs.overlay offset src)[p]?
      = if offset ≤ p ∧ p < offset + src.length then src[p - offset]? else bs[p]? := by
  -- Positions are in front of the piece, under it or behind it.
  have hfront : (bs.take offset).length = offset := by
    rw [List.length_take]
    omega
  rw [overlay]
  split
  · next hin =>
    rw [List.getElem?_append_left (by rw [List.length_append, hfront]; omega),
      List.getElem?_append_right (by omega), hfront]
  · next hout =>
    by_cases hbefore : p < offset
    · rw [List.append_assoc, List.getElem?_append_left (by omega), List.getElem?_take_of_lt hbefore]
    · rw [List.getElem?_append_right (by rw [List.length_append, hfront]; omega),
        List.length_append, hfront, List.getElem?_drop]
      congr 1
      omega

/-- What is laid over a string is a part of it then. -/
theorem slice_overlay {bs src : Bytes} {offset : Nat} (h : offset + src.length ≤ bs.length) :
    (bs.overlay offset src).slice offset src.length = src := by
  refine slice_eq_of_getElem? (by rwa [length_overlay h]) fun k hk => ?_
  rw [getElem?_overlay h, if_pos ⟨Nat.le_add_right _ _, by omega⟩, Nat.add_sub_cancel_left]

/-- All bytes of a range inside a string are the same one. -/
theorem forall_mem_slice_iff {data : Bytes} {first last : Nat} (hlast : last ≤ data.length)
    (b : UInt8) :
    (∀ x ∈ data.slice first (last - first), x = b) ↔
      ∀ p, first ≤ p → p < last → data[p]? = some b := by
  constructor
  · intro h p hfirst hp
    have hget : (data.slice first (last - first))[p - first]? = data[p]? := by
      rw [getElem?_slice (by omega), Nat.add_sub_cancel' hfirst]
    have hsome : data[p]? = some data[p] := List.getElem?_eq_getElem (by omega)
    rw [hsome] at hget ⊢
    rw [h _ (List.mem_of_getElem? hget)]
  · intro h x hx
    obtain ⟨k, hk⟩ := List.mem_iff_getElem?.1 hx
    have hlen : k < (data.slice first (last - first)).length :=
      (List.getElem?_eq_some_iff.1 hk).1
    rw [length_slice] at hlen
    rw [getElem?_slice (by omega), h (first + k) (by omega) (by omega)] at hk
    exact (Option.some.inj hk).symm

/-! ### Words -/

/-- The value of a part is below the bound that its length sets. -/
theorem toNat_slice_lt (bs : Bytes) (offset len : Nat) :
    toNat (bs.slice offset len) < Nat.pow 256 len :=
  Nat.lt_of_lt_of_le (toNat_lt _) (Nat.pow_le_pow_right (by decide) (by rw [length_slice]; omega))

/-- The positional form of the value of a part is the part. -/
theorem ofNat_toNat_slice {bs : Bytes} {offset len : Nat} (h : offset + len ≤ bs.length) :
    ofNat len (toNat (bs.slice offset len)) = bs.slice offset len := by
  have hback := ofNat_toNat (bs.slice offset len)
  rwa [length_slice_of_le h] at hback

/-- A 16-bit word, written again, is the part it was read from. -/
theorem u16_u16At {bs : Bytes} {offset : Nat} (h : offset + 2 ≤ bs.length) :
    u16 (bs.u16At offset) = bs.slice offset 2 := by
  have hlt : toNat (bs.slice offset 2) < 256 ^ 2 := toNat_slice_lt bs offset 2
  rw [u16, u16At, UInt16.toNat_ofNat', Nat.mod_eq_of_lt (by omega), ofNat_toNat_slice h]

/-- A 32-bit word, written again, is the part it was read from. -/
theorem u32_u32At {bs : Bytes} {offset : Nat} (h : offset + 4 ≤ bs.length) :
    u32 (bs.u32At offset) = bs.slice offset 4 := by
  have hlt : toNat (bs.slice offset 4) < 256 ^ 4 := toNat_slice_lt bs offset 4
  rw [u32, u32At, UInt32.toNat_ofNat', Nat.mod_eq_of_lt (by omega), ofNat_toNat_slice h]

/-- A 64-bit word, written again, is the part it was read from. -/
theorem u64_u64At {bs : Bytes} {offset : Nat} (h : offset + 8 ≤ bs.length) :
    u64 (bs.u64At offset) = bs.slice offset 8 := by
  have hlt : toNat (bs.slice offset 8) < 256 ^ 8 := toNat_slice_lt bs offset 8
  rw [u64, u64At, UInt64.toNat_ofNat', Nat.mod_eq_of_lt (by omega), ofNat_toNat_slice h]

/-- The value of a written word is the word. -/
@[simp] theorem ofNat_toNat_u16 (x : UInt16) : UInt16.ofNat (toNat (u16 x)) = x := by
  have hlt : x.toNat < Nat.pow 256 2 := Nat.lt_of_lt_of_eq x.toNat_lt (by decide)
  rw [u16, toNat_ofNat, Nat.mod_eq_of_lt hlt, UInt16.ofNat_toNat]

@[simp] theorem ofNat_toNat_u32 (x : UInt32) : UInt32.ofNat (toNat (u32 x)) = x := by
  have hlt : x.toNat < Nat.pow 256 4 := Nat.lt_of_lt_of_eq x.toNat_lt (by decide)
  rw [u32, toNat_ofNat, Nat.mod_eq_of_lt hlt, UInt32.ofNat_toNat]

@[simp] theorem ofNat_toNat_u64 (x : UInt64) : UInt64.ofNat (toNat (u64 x)) = x := by
  have hlt : x.toNat < Nat.pow 256 8 := Nat.lt_of_lt_of_eq x.toNat_lt (by decide)
  rw [u64, toNat_ofNat, Nat.mod_eq_of_lt hlt, UInt64.ofNat_toNat]

/-- A dword that a buffer holds is read. -/
theorem readU32_of_le {bs : Bytes} {offset : Nat} (h : offset + 4 ≤ bs.length) :
    bs.readU32 offset = .ok (bs.u32At offset) := by
  rw [readU32, slice?_of_le h]
  rfl

/-- A dword that does not lie in a buffer is not read. -/
theorem readU32_of_lt {bs : Bytes} {offset : Nat} (h : bs.length < offset + 4) :
    bs.readU32 offset = .error (.shortBuffer offset 4 bs.length) := by
  rw [readU32, slice?_of_lt h]
  rfl

/-- The value of two strings side by side: the front counts in steps of what the back can hold. -/
theorem toNat_append (a b : Bytes) : toNat (a ++ b) = toNat a * Nat.pow 256 b.length + toNat b := by
  -- The front is what the fold over the back starts from.
  have hfold (n : Nat) : b.foldl (fun n b => n * 256 + b.toNat) n
      = n * Nat.pow 256 b.length + b.foldl (fun n b => n * 256 + b.toNat) 0 := by
    induction b generalizing n with
    | nil => exact (Nat.mul_one n).symm
    | cons x b ih =>
      have hpow : Nat.pow 256 (x :: b).length = 256 * Nat.pow 256 b.length := Nat.mul_comm _ _
      rw [List.foldl_cons, List.foldl_cons, ih, ih (0 * 256 + x.toNat), hpow, Nat.add_mul, Nat.mul_assoc,
        Nat.zero_mul, Nat.zero_add, Nat.add_assoc]
  rw [toNat, List.foldl_append]
  exact hfold (toNat a)

/-- **A dword is two words**, the upper half first. -/
theorem toNat_u32At {bs : Bytes} {offset : Nat} (h : offset + 4 ≤ bs.length) :
    (bs.u32At offset).toNat = (bs.u16At offset).toNat * 2 ^ 16 + (bs.u16At (offset + 2)).toNat := by
  have hsplit := slice_append_slice bs offset 2 2
  have hback : (bs.slice (offset + 2) 2).length = 2 := length_slice_of_le (by omega)
  have hvalue := toNat_append (bs.slice offset 2) (bs.slice (offset + 2) 2)
  have hhigh : toNat (bs.slice offset 2) < 256 ^ 2 := toNat_slice_lt bs offset 2
  have hlow : toNat (bs.slice (offset + 2) 2) < 256 ^ 2 := toNat_slice_lt bs (offset + 2) 2
  have hstep : Nat.pow 256 2 = 2 ^ 16 := by decide
  rw [hsplit, hback, hstep] at hvalue
  rw [u32At, u16At, u16At, UInt32.toNat_ofNat', UInt16.toNat_ofNat', UInt16.toNat_ofNat', hvalue]
  omega

/-- The lower half of a dword is the word two bytes further on. -/
theorem toUInt16_u32At {bs : Bytes} {offset : Nat} (h : offset + 4 ≤ bs.length) :
    (bs.u32At offset).toUInt16 = bs.u16At (offset + 2) := by
  have hlow := (bs.u16At (offset + 2)).toNat_lt
  apply UInt16.toNat_inj.1
  rw [UInt32.toNat_toUInt16, toNat_u32At h]
  omega

/-- The upper half of a dword is the word at the same place. -/
theorem toUInt16_u32At_shiftRight {bs : Bytes} {offset : Nat} (h : offset + 4 ≤ bs.length) :
    (bs.u32At offset >>> 16).toUInt16 = bs.u16At offset := by
  have hhigh := (bs.u16At offset).toNat_lt
  have hlow := (bs.u16At (offset + 2)).toNat_lt
  have hshift : (16 : UInt32).toNat % 32 = 16 := by decide
  apply UInt16.toNat_inj.1
  rw [UInt32.toNat_toUInt16, UInt32.toNat_shiftRight, hshift, Nat.shiftRight_eq_div_pow, toNat_u32At h]
  omega

/-! ### What stands behind other bytes -/

/-- A part of what is left of a string is a part of the string further on. -/
theorem slice_drop (bs : Bytes) (n offset len : Nat) :
    slice (bs.drop n) offset len = bs.slice (n + offset) len := by
  rw [slice, slice, List.drop_drop]

/-- A dword of what is left of a string is a dword of the string further on. -/
theorem u32At_drop (bs : Bytes) (n offset : Nat) : u32At (bs.drop n) offset = bs.u32At (n + offset) := by
  rw [u32At, u32At, slice_drop]

/-- A part behind other bytes is a part of what stands behind them. -/
theorem slice_append_right (front bs : Bytes) (offset len : Nat) :
    slice (front ++ bs) (front.length + offset) len = bs.slice offset len := by
  rw [slice, slice, List.drop_length_add_append]

/-- A dword behind other bytes is a dword of what stands behind them. -/
theorem u32At_append_right (front bs : Bytes) (offset : Nat) :
    u32At (front ++ bs) (front.length + offset) = bs.u32At offset := by
  rw [u32At, u32At, slice_append_right]

/-- A dword that was written is read back, whatever stands behind it. -/
theorem u32At_u32_append (dword : UInt32) (rest : Bytes) : u32At (u32 dword ++ rest) 0 = dword := by
  have hslice : slice (u32 dword ++ rest) 0 4 = u32 dword := by
    rw [slice_zero_left, List.take_left' (length_u32 dword)]
  rw [u32At, hslice, ofNat_toNat_u32]

/-- A dword behind a byte string is read there. -/
theorem u32At_append_u32 (bs : Bytes) (dword : UInt32) : u32At (bs ++ u32 dword) bs.length = dword := by
  have hdword := u32At_u32_append dword []
  rwa [List.append_nil, ← u32At_append_right bs (u32 dword) 0] at hdword

/-- A word behind a byte string is read there. -/
theorem u16At_append_u16 (bs : Bytes) (word : UInt16) : u16At (bs ++ u16 word) bs.length = word := by
  have hslice := slice_append_right bs (u16 word) 0 2
  rw [Nat.add_zero, slice_zero_left, List.take_of_length_le (Nat.le_of_eq (length_u16 word))] at hslice
  rw [u16At, hslice, ofNat_toNat_u16]

/-- Dwords in a row take four bytes each. -/
theorem length_ofDwords (dwords : List UInt32) : (ofDwords dwords).length = 4 * dwords.length := by
  induction dwords with
  | nil => rfl
  | cons dword dwords ih =>
    rw [ofDwords, List.flatMap_cons, List.length_append, length_u32, List.length_cons, Nat.mul_succ,
      Nat.add_comm]
    exact congrArg (· + 4) ih

/-- **Dwords in a row are read back**, whatever stands behind them. -/
theorem u32At_ofDwords_append (dwords : List UInt32) (rest : Bytes) {i : Nat}
    (h : i < dwords.length) : u32At (ofDwords dwords ++ rest) (i * 4) = dwords[i] := by
  induction dwords generalizing i with
  | nil => cases h
  | cons dword dwords ih =>
    have hfront : ofDwords (dword :: dwords) ++ rest = u32 dword ++ (ofDwords dwords ++ rest) := by
      rw [ofDwords, List.flatMap_cons, List.append_assoc]
      rfl
    rw [hfront]
    -- The first dword stands in front, and all others are four bytes further on.
    cases i with
    | zero =>
      rw [Nat.zero_mul, u32At_u32_append]
      rfl
    | succ i =>
      have hoffset : (i + 1) * 4 = (u32 dword).length + i * 4 := by
        rw [length_u32]
        omega
      rw [hoffset, u32At_append_right, ih (Nat.lt_of_succ_lt_succ h)]
      rfl

/-! ### Rows of records -/

/-- **A row of records is written back**, if each of them is. -/
theorem flatMap_rows {α : Type} {decodeAt : Nat → α} {encode : α → Bytes} {bs : Bytes}
    {offset size : Nat} (count : Nat)
    (h : ∀ i < count, encode (decodeAt i) = bs.slice (offset + i * size) size) :
    ((List.range count).map decodeAt).flatMap encode = bs.slice offset (count * size) := by
  induction count with
  | zero => rw [Nat.zero_mul, slice_zero_right]; rfl
  | succ count ih =>
    have hfront := ih fun i hi => h i (Nat.lt_succ_of_lt hi)
    rw [List.range_succ, List.map_append, List.flatMap_append, hfront, List.map_singleton,
      List.flatMap_singleton, h count (Nat.lt_succ_self count), slice_append_slice, Nat.succ_mul]

/-- A row of dwords is written back. -/
theorem ofDwords_row {bs : Bytes} {offset : Nat} (count : Nat)
    (h : offset + count * 4 ≤ bs.length) :
    ofDwords ((List.range count).map fun i => bs.u32At (offset + i * 4))
      = bs.slice offset (count * 4) := by
  refine flatMap_rows count fun i hi => u32_u32At ?_
  omega

end FlashImage.Bytes
