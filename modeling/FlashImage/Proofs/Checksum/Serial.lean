import FlashImage.Proofs.Checksum.Linear

/-!
# The software CRC bit by bit

The software CRC is defined by a register that takes one bit at a time: the input, filled up to whole
dwords, goes in at the low end of a register of all ones, sixteen zero bits push it through, and the
result is inverted (`serial`). `software` gets there by another way. It folds whole bytes in at the high
end, so that nothing has to be pushed through, and starts at the value that all ones have after
sixteen zero bits.

What ties the two is that the second register is always the first one pushed through
(`run_iterate_shift`): bits that went in at the low end and are pushed up by sixteen places are bits
folded in at the high end, since the register is linear. The result is `software_eq_serial`.

## Parts

* the register that takes one bit at a time, and the bits of a word;
* bytes that go into it;
* dwords as bytes, and the result.
-/

namespace FlashImage.Crc

/-! ### One bit at a time -/

/-- **The register after a bit has gone in** at its low end. -/
def clock (register : UInt16) (bit : Bool) : UInt16 :=
  let moved := (register <<< 1) ||| bit.toUInt16
  if register &&& 0x8000 = 0 then moved else moved ^^^ polynomial

/-- The bits of a word, most significant first. -/
def msbFirst {width : Nat} (word : BitVec width) : List Bool := (List.range width).map word.getMsbD

/-- **The CRC by its definition**: all bits of the input, filled up with zero bytes to whole dwords, go
into a register of all ones, sixteen zero bits push them through, and the result is inverted. -/
def serial (data : Bytes) : UInt16 :=
  let dwords := Bytes.toDwords (data.rightpad ((data.length + 3) / 4 * 4) 0)
  let bits := dwords.flatMap fun dword => msbFirst dword.toBitVec
  ~~~(bits ++ List.replicate 16 false).foldl clock 0xffff

/-- The low end of the register is empty after a shift, so a bit that is put there is a bit added. -/
theorem shiftLeft_or (register : UInt16) (bit : Bool) :
    (register <<< 1) ||| bit.toUInt16 = (register <<< 1) ^^^ bit.toUInt16 := by
  cases bit with
  | false => rw [show false.toUInt16 = 0 from rfl, UInt16.or_zero, UInt16.xor_zero]
  | true =>
    apply UInt16.toBitVec_inj.1
    apply BitVec.eq_of_getLsbD_eq
    intro i hi
    have hone : true.toUInt16.toBitVec.getLsbD i = decide (i = 0) := by simp
    simp only [UInt16.toBitVec_or, UInt16.toBitVec_xor, BitVec.getLsbD_or, BitVec.getLsbD_xor, hone]
    by_cases h : i = 0
    · subst h
      simp
    · simp [h]

/-- **A bit that goes in is added to a shift.** -/
theorem clock_eq (register : UInt16) (bit : Bool) :
    clock register bit = shift register ^^^ bit.toUInt16 := by
  simp only [clock, shift, shiftLeft_or]
  split
  · rfl
  · ac_rfl

/-- Zero bits are shifts. -/
theorem foldl_clock_replicate (n : Nat) (register : UInt16) :
    (List.replicate n false).foldl clock register = shift^[n] register := by
  induction n generalizing register with
  | zero => rfl
  | succ n ih =>
    have hzero : clock register false = shift register := by
      rw [clock_eq]
      exact UInt16.xor_zero
    rw [List.replicate_succ, List.foldl_cons, hzero, ih]
    rfl

/-- **Bits go into any register as they go into an empty one**, beside what is shifted up. -/
theorem foldl_clock (bits : List Bool) (register : UInt16) :
    bits.foldl clock register = shift^[bits.length] register ^^^ bits.foldl clock 0 := by
  induction bits generalizing register with
  | nil => exact UInt16.xor_zero.symm
  | cons bit bits ih =>
    have hbit : clock 0 bit = bit.toUInt16 := by cases bit <;> decide
    rw [List.foldl_cons, List.foldl_cons, ih, ih (clock 0 bit), clock_eq, iterate_shift_xor, hbit,
      UInt16.xor_assoc]
    rfl

/-! ### Bytes -/

/-- The bits of a byte leave the byte in an empty register. -/
theorem foldl_clock_byte (b : UInt8) : (msbFirst b.toBitVec).foldl clock 0 = b.toUInt16 := by
  have hall : ∀ n < 256,
      (msbFirst (UInt8.ofNat n).toBitVec).foldl clock 0 = (UInt8.ofNat n).toUInt16 := by
    decide +kernel
  have hb := hall b.toNat b.toNat_lt
  rwa [UInt8.ofNat_toNat] at hb

/-- **What feeding bytes leaves is what their bits leave, pushed through.** -/
theorem run_iterate_shift (data : Bytes) (register : UInt16) :
    run (shift^[16] register) data
      = shift^[16] ((data.flatMap fun b => msbFirst b.toBitVec).foldl clock register) := by
  induction data generalizing register with
  | nil => rfl
  | cons b data ih =>
    have hlength : (msbFirst b.toBitVec).length = 8 := by simp [msbFirst]
    -- The byte at the high end is the byte at the low end, eight places further down.
    have hbyte : feed (shift^[16] register) b
        = shift^[16] ((msbFirst b.toBitVec).foldl clock register) :=
      calc feed (shift^[16] register) b
          = shift^[8] (shift^[8] (shift^[8] register ^^^ b.toUInt16)) := by
            rw [feed_eq, iterate_shift_xor 8 (shift^[8] register)]
            rfl
        _ = shift^[16] ((msbFirst b.toBitVec).foldl clock register) := by
            rw [foldl_clock, foldl_clock_byte, hlength]
            rfl
    rw [run_cons, List.flatMap_cons, List.foldl_append, hbyte, ih]

/-! ### Dwords -/

/-- The bits of two words side by side. -/
theorem msbFirst_append {v w : Nat} (x : BitVec v) (y : BitVec w) :
    msbFirst (x ++ y) = msbFirst x ++ msbFirst y := by
  rw [msbFirst, List.range_add, List.map_append, List.map_map]
  congr 1
  · refine List.map_congr_left fun i hi => ?_
    rw [BitVec.getMsbD_append, if_neg (Nat.not_le.2 (List.mem_range.1 hi))]
  · refine List.map_congr_left fun i _ => ?_
    simp [BitVec.getMsbD_append]

/-- A dword is its four bytes side by side. -/
theorem toBitVec_ofNat_toNat (a b c d : UInt8) :
    (UInt32.ofNat (Bytes.toNat [a, b, c, d])).toBitVec
      = a.toBitVec ++ b.toBitVec ++ c.toBitVec ++ d.toBitVec := by
  have happend {v w : Nat} (x : BitVec v) (y : BitVec w) :
      (x ++ y).toNat = 2 ^ w * x.toNat + y.toNat := by
    rw [BitVec.toNat_append, ← Nat.shiftLeft_add_eq_or_of_lt y.isLt, Nat.shiftLeft_eq, Nat.mul_comm]
  have ha := a.toNat_lt
  have hb := b.toNat_lt
  have hc := c.toNat_lt
  have hd := d.toNat_lt
  apply BitVec.eq_of_toNat_eq
  rw [happend, happend, happend, UInt32.toNat_toBitVec, UInt32.toNat_ofNat']
  simp only [Bytes.toNat, List.foldl_cons, List.foldl_nil, UInt8.toNat_toBitVec]
  omega

/-- **The bits of whole dwords are those of their bytes.** -/
theorem flatMap_toDwords (data : Bytes) (h : data.length % 4 = 0) :
    ((Bytes.toDwords data).flatMap fun dword => msbFirst dword.toBitVec)
      = data.flatMap fun b => msbFirst b.toBitVec := by
  induction data using Bytes.toDwords.induct with
  | case1 a b c d rest ih =>
    have hrest : rest.length % 4 = 0 := by
      simp only [List.length_cons] at h
      omega
    rw [Bytes.toDwords, List.flatMap_cons, toBitVec_ofNat_toNat, msbFirst_append, msbFirst_append,
      msbFirst_append, ih hrest]
    simp only [List.flatMap_cons, List.append_assoc]
  | case2 data hshort =>
    match data, h with
    | [], _ => rfl
    | a :: b :: c :: d :: rest, _ => exact absurd rfl (hshort a b c d rest)

/-- **The software CRC is the one that the register of single bits defines.** -/
theorem software_eq_serial (data : Bytes) : software data = serial data := by
  have hpadding : (data.length + 3) / 4 * 4 - data.length = padding data := by
    unfold padding
    omega
  have hpad : data.rightpad ((data.length + 3) / 4 * 4) 0 = data ++ List.replicate (padding data) 0 := by
    rw [List.rightpad, hpadding]
  have hwhole : (data ++ List.replicate (padding data) 0).length % 4 = 0 := by
    rw [List.length_append, List.length_replicate]
    unfold padding
    omega
  have hstart : (0xf6aa : UInt16) = shift^[16] 0xffff := by decide +kernel
  rw [software, ← run_append, hstart, run_iterate_shift, serial, hpad, flatMap_toDwords _ hwhole,
    List.foldl_append, foldl_clock_replicate]

example : software [0x31, 0x32, 0x33, 0x34, 0x35, 0x36, 0x37, 0x38, 0x39] = 0x9ce9 := by
  decide +kernel

end FlashImage.Crc
