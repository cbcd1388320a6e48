import FlashImage.Machine.Access
import FlashImage.Proofs.Bytes.Parts
import FlashImage.Proofs.Machine.Word

/-!
# Reaching into a buffer without fault

The range of an access is tested before it is used. After the test neither the range nor a copy out of it
or into it can fault, whatever the offset and the length are. What is not tested are products: a row of
dwords is read without fault if its length in bytes is a word, and a width that does not match is reported
without fault if it can be counted in bits. A character field is padded without fault if there can be a
string of its width.

The shifts of a field of a dword rely on its bounds alone.
-/

namespace FlashImage.Machine

/-! ### Ranges -/

variable {bs : Bytes} {offset len : Nat}

theorem rangeEnd_eq (size offset len : Nat) (h : size < 2 ^ 64) : rangeEnd size offset len =
    if offset + len ≤ size then .ok (offset + len) else .error (.shortBuffer offset len size) := by
  unfold rangeEnd
  rcases Nat.lt_or_ge (offset + len) (2 ^ 64) with hsum | hsum
  · rw [checkedAdd_eq hsum]
  · rw [checkedAdd_eq_none hsum, if_neg (by omega)]

theorem slice_eq (h : bs.length < 2 ^ 64) : slice bs offset len = settled (bs.slice? offset len) := by
  rw [slice, rangeEnd_eq _ _ _ h, Bytes.slice?]
  by_cases hin : offset + len ≤ bs.length
  · rw [if_pos hin, if_pos hin, settled_ok_bind, sliceBetween_eq (by omega) hin, Nat.add_sub_cancel_left]
    rfl
  · rw [if_neg hin, if_neg hin]
    rfl

theorem put_eq {src : Bytes} (h : bs.length < 2 ^ 64) :
    put bs offset src = settled (bs.put? offset src) := by
  rw [put, rangeEnd_eq _ _ _ h, Bytes.put?]
  by_cases hin : offset + src.length ≤ bs.length
  · rw [if_pos hin, if_pos hin, settled_ok_bind, copyOver, if_pos ⟨by omega, hin, by omega⟩]
    rfl
  · rw [if_neg hin, if_neg hin]
    rfl

theorem fieldOverflow_eq {name : String} {len width : Nat} (h : width * 8 < 2 ^ 64) :
    (fieldOverflow name len width : Step AccessError Bytes)
      = settled (.error (.fieldOverflow name len (width * 8 % UInt32.size))) := by
  rw [fieldOverflow, mul_eq h]
  rfl

/-- A width that cannot be counted in bits cannot be reported. -/
theorem fieldOverflow_fault {name : String} {len width : Nat} (h : 2 ^ 64 ≤ width * 8) :
    (fieldOverflow name len width : Step AccessError Bytes).run = .error .overflow := by
  rw [fieldOverflow, mul_fault h]
  rfl

theorem exactWidth_eq {name : String} {src : Bytes} {width : Nat}
    (h : src.length = width ∨ width * 8 < 2 ^ 64) :
    exactWidth name src width = settled (Bytes.exactWidth name src width) := by
  unfold exactWidth Bytes.exactWidth
  by_cases hlen : src.length = width
  · rw [if_pos hlen, if_pos hlen]
    rfl
  · rw [if_neg hlen, if_neg hlen]
    exact fieldOverflow_eq (h.resolve_left hlen)

theorem exactWidth_fault {name : String} {src : Bytes} {width : Nat} (hlen : src.length ≠ width)
    (h : 2 ^ 64 ≤ width * 8) : (exactWidth name src width).run = .error .overflow := by
  rw [exactWidth, if_neg hlen]
  exact fieldOverflow_fault h

/-! ### Words -/

theorem array_eq {n : Nat} (h : bs.length < 2 ^ 64) :
    array bs offset n = settled (bs.slice? offset n) := by
  rw [array, slice_eq h, Bytes.slice?]
  by_cases hin : offset + n ≤ bs.length
  · have hlen : (bs.slice offset n).length = n := Bytes.length_slice_of_le hin
    have hall : Bytes.overlay (List.replicate n 0) 0 (bs.slice offset n) = bs.slice offset n := by
      simp [Bytes.overlay, hlen]
    rw [if_pos hin, settled_ok_bind, copyOver, if_pos (by simp [hlen]), hall]
    rfl
  · rw [if_neg hin]
    rfl

theorem readU8_eq (h : bs.length < 2 ^ 64) : readU8 bs offset = settled (bs.readU8 offset) := by
  rw [readU8, array_eq h, Bytes.readU8]
  refine settled_bind fun a ha => ?_
  obtain ⟨b, rfl⟩ : ∃ b, a = [b] := by
    rw [Bytes.slice?] at ha
    split at ha
    · next hin =>
      cases ha
      exact List.length_eq_one_iff.1 (Bytes.length_slice_of_le hin)
    · cases ha
  have hb : UInt8.ofNat (Bytes.toNat [b]) = b := by simp [Bytes.toNat]
  rw [hb]
  rfl

theorem readU16_eq (h : bs.length < 2 ^ 64) : readU16 bs offset = settled (bs.readU16 offset) := by
  rw [readU16, array_eq h, Bytes.readU16]
  exact settled_bind fun a _ => rfl

theorem readU32_eq (h : bs.length < 2 ^ 64) : readU32 bs offset = settled (bs.readU32 offset) := by
  rw [readU32, array_eq h, Bytes.readU32]
  exact settled_bind fun a _ => rfl

theorem readU64_eq (h : bs.length < 2 ^ 64) : readU64 bs offset = settled (bs.readU64 offset) := by
  rw [readU64, array_eq h, Bytes.readU64]
  exact settled_bind fun a _ => rfl

/-! ### Whole parts -/

theorem length_of_mem_chunks {size : Nat} {c : Bytes} (h : c ∈ chunks size bs) : c.length = size := by
  obtain ⟨i, hi, rfl⟩ := List.mem_map.1 h
  have hi : i + 1 ≤ bs.length / size := List.mem_range.1 hi
  have hend : (i + 1) * size ≤ bs.length :=
    Nat.le_trans (Nat.mul_le_mul_right size hi) (Nat.div_mul_le_self _ _)
  rw [Nat.succ_mul] at hend
  exact Bytes.length_slice_of_le hend

/-- The whole dwords of a string are its parts of four bytes. -/
theorem toDwords_eq (bs : Bytes) :
    bs.toDwords = (chunks 4 bs).map fun c => UInt32.ofNat (Bytes.toNat c) := by
  induction bs using Bytes.toDwords.induct with
  | case1 a b c d rest ih =>
    -- One dword in front moves all others by four bytes.
    have hcount : (a :: b :: c :: d :: rest).length / 4 = rest.length / 4 + 1 := by
      simp only [List.length_cons]
      omega
    have hnext (i : Nat) : Bytes.slice (a :: b :: c :: d :: rest) ((i + 1) * 4) 4
        = Bytes.slice rest (i * 4) 4 := by
      rw [Nat.succ_mul]
      rfl
    rw [Bytes.toDwords, ih, chunks, chunks, hcount, List.range_succ_eq_map]
    simp only [List.map_cons, List.map_map]
    congr 1
    refine List.map_congr_left fun i _ => ?_
    simp only [Function.comp_apply, Nat.succ_eq_add_one, hnext]
  | case2 bs hshort =>
    have hcount : bs.length / 4 = 0 := by
      match bs, hshort with
      | [], _ | [_], _ | [_, _], _ | [_, _, _], _ => simp
      | a :: b :: c :: d :: rest, hshort => exact absurd rfl (hshort a b c d rest)
    rw [Bytes.toDwords, chunks, hcount]
    · rfl
    · exact hshort

theorem readDwords_eq {count : Nat} (h : bs.length < 2 ^ 64) (hcount : count * 4 < 2 ^ 64) :
    readDwords bs offset count = settled (bs.readDwords offset count) := by
  rw [readDwords, mul_eq hcount, lift_ok, settled_ok_bind, slice_eq h, Bytes.readDwords]
  refine settled_bind fun part _ => ?_
  rw [toDwords_eq]
  refine mapM_settled fun c hc => ?_
  obtain ⟨b0, b1, b2, b3, rfl⟩ : ∃ b0 b1 b2 b3, c = [b0, b1, b2, b3] := by
    match c, length_of_mem_chunks hc with
    | [b0, b1, b2, b3], _ => exact ⟨b0, b1, b2, b3, rfl⟩
  rfl

/-- A row whose length in bytes is not a word is not looked for. -/
theorem readDwords_fault {count : Nat} (h : 2 ^ 64 ≤ count * 4) :
    (readDwords bs offset count).run = .error .overflow := by
  rw [readDwords, mul_fault h]
  rfl

/-! ### Fields of a dword -/

theorem bitWidth_eq {msb lsb : Nat} (hle : lsb ≤ msb) (hmsb : msb < 32) :
    bitWidth msb lsb = .ok (msb - lsb + 1) := by
  rw [bitWidth, sub_eq hle, ok_bind]
  exact word_eq (Nat.lt_of_le_of_lt (by omega : msb - lsb + 1 ≤ 32) (by decide))

theorem mask_eq {msb lsb : Nat} (hle : lsb ≤ msb) (hmsb : msb < 32) :
    mask msb lsb = .ok (FlashImage.mask msb lsb) := by
  rw [mask, bitWidth_eq hle hmsb, ok_bind]
  by_cases hall : msb - lsb + 1 = 32
  · obtain rfl : msb = 31 := by omega
    obtain rfl : lsb = 0 := by omega
    rfl
  · have hbit : (1 <<< (msb - lsb + 1)) % 2 ^ 32 = 1 <<< (msb - lsb + 1) := by
      rw [Nat.one_shiftLeft]
      exact Nat.mod_eq_of_lt (Nat.pow_lt_pow_right (by decide) (by omega))
    have hpos : 1 ≤ 1 <<< (msb - lsb + 1) := by
      rw [Nat.one_shiftLeft]
      exact Nat.one_le_two_pow
    rw [if_neg hall, shiftLeft_eq (by omega), ok_bind, hbit, sub_eq hpos, ok_bind,
      shiftLeft_eq (by omega), FlashImage.mask, Nat.sub_add_comm hle]
    show Except.ok _ = Except.ok _
    rw [UInt32.ofNat_mod_size]

theorem bits_eq {dword : UInt32} {msb lsb : Nat} (hle : lsb ≤ msb) (hmsb : msb < 32) :
    bits dword msb lsb = .ok (FlashImage.bits dword msb lsb) := by
  rw [bits, mask_eq hle hmsb, ok_bind, shiftRight_eq (by omega)]
  rfl

theorem setBits_eq {dword : UInt32} {msb lsb : Nat} (hle : lsb ≤ msb) (hmsb : msb < 32) (value : UInt32) :
    setBits dword msb lsb value = .ok (FlashImage.setBits dword msb lsb value) := by
  have hshifted : UInt32.ofNat ((value.toNat <<< lsb) % 2 ^ 32) = value <<< UInt32.ofNat lsb := by
    apply UInt32.toNat_inj.1
    have hlsb : lsb % 32 = lsb := Nat.mod_eq_of_lt (by omega)
    simp [UInt32.toNat_shiftLeft, hlsb]
  rw [setBits, mask_eq hle hmsb, ok_bind, shiftLeft_eq (by omega), ok_bind, hshifted]
  rfl

/-- **A field is read without fault**, from any record. -/
@[simp] theorem field_eq (f : BitField) (dwords : List UInt32) : field f dwords = .ok (f.get dwords) := by
  unfold field BitField.get
  cases dwords[f.dword]? with
  | none => rfl
  | some dword => exact bits_eq f.lsb_le_msb f.msb_lt

/-- **A field is written without fault**, or refused, if the start of its dword can be counted in bytes. -/
theorem setField_eq {f : BitField} {dwords : List UInt32} {value : UInt32} (hdword : f.dword * 4 < 2 ^ 64)
    (hsize : dwords.length * 4 < 2 ^ 64) :
    setField f dwords value = settled (f.set dwords value) := by
  have hlimit : shiftRight f.mask f.lsb = .ok f.limit :=
    shiftRight_eq (Nat.lt_of_le_of_lt f.lsb_le_msb f.msb_lt)
  have hmask : mask f.msb f.lsb = .ok f.mask := mask_eq f.lsb_le_msb f.msb_lt
  rw [setField, hmask, lift_ok, settled_ok_bind, hlimit, lift_ok, settled_ok_bind, BitField.set]
  split
  · rw [bitWidth_eq f.lsb_le_msb f.msb_lt]
    rfl
  · rw [mul_eq hdword, lift_ok, settled_ok_bind, mul_eq hsize, lift_ok, settled_ok_bind]
    by_cases hin : f.dword < dwords.length
    · rw [if_pos hin, BitField.replace, List.modify_eq_set, List.getElem?_eq_getElem hin, Option.getD_some]
      simp only [setBits_eq f.lsb_le_msb f.msb_lt]
      rfl
    · rw [if_neg hin, List.getElem?_eq_none (Nat.le_of_not_lt hin)]
      rfl

/-! ### Text -/

@[simp] theorem fieldText_eq (bs : Bytes) : fieldText bs = .ok (.ofField bs) := by
  have htake : bs.takeWhile (· ≠ 0) = bs.take (bs.findIdx (· = 0)) := by
    rw [List.takeWhile_eq_take_findIdx_not]
    simp
  have hdrop : bs.dropWhile (· ≠ 0) = bs.drop (bs.findIdx (· = 0)) := by
    rw [List.dropWhile_eq_drop_findIdx_not]
    simp
  rw [fieldText, splitAt, if_pos List.findIdx_le_length, ok_bind, FieldText.ofField, htake, hdrop]
  rfl

/-- A field is written as its definition says, if there is room for it, or if its width can be reported. -/
theorem toField_eq {t : FieldText} {name : String} {width : Nat} (hroom : width < 2 ^ 63)
    (hreport : width < t.bytes.length → width * 8 < 2 ^ 64) :
    toField t name width = settled (t.toField name width) := by
  unfold toField FieldText.toField
  split
  · next hlong => exact fieldOverflow_eq (hreport hlong)
  · rw [allocate_eq hroom]
    rfl

/-- No string is wide enough for a field of half as many bytes as a word can count. -/
theorem toField_fault {t : FieldText} {name : String} {width : Nat} (hlen : t.bytes.length ≤ width)
    (h : 2 ^ 63 ≤ width) : (toField t name width).run = .error .capacity := by
  rw [toField, if_neg (Nat.not_lt.2 hlen), allocate_fault h]
  rfl

end FlashImage.Machine
