import FlashImage.Checksum.Crc
import Mathlib.Algebra.Group.Nat.Defs
import Mathlib.Logic.Function.Iterate

/-!
# The register is linear

Whatever goes into the register of a CRC, each step of it is linear in exclusive or: a shift moves all
bits up by one place, and folds the polynomial in if the bit that leaves is set (`shift_eq`). So shifts of
a sum are the sum of the shifts (`shift_xor`), however many there are (`iterate_shift_xor`).

A register that is low enough loses no bit, and a shift doubles it (`toNat_shift`). In particular eight
shifts move a byte from the low end of the register to the high end (`iterate_shift_byte`), where
`feed` puts it.
-/

namespace FlashImage.Crc

/-! ### One shift -/

/-- The bit that leaves the register is its topmost one. -/
theorem and_top_eq_zero_iff (register : UInt16) :
    register &&& 0x8000 = 0 ↔ register.toBitVec.msb = false := by
  have htop : (register &&& 0x8000).toBitVec
      = if register.toBitVec.msb then BitVec.twoPow 16 15 else 0#16 := by
    rw [UInt16.toBitVec_and, BitVec.msb_eq_getLsbD_last]
    exact BitVec.and_twoPow register.toBitVec 15
  rw [← UInt16.toBitVec_inj, htop]
  cases register.toBitVec.msb <;> decide

/-- A shift moves the bits up, and folds back in the one that leaves. -/
theorem shift_eq (register : UInt16) :
    shift register = (register <<< 1) ^^^ (if register.toBitVec.msb then polynomial else 0) := by
  simp only [shift, and_top_eq_zero_iff]
  cases register.toBitVec.msb <;> simp

/-- **A shift is linear.** -/
theorem shift_xor (x y : UInt16) : shift (x ^^^ y) = shift x ^^^ shift y := by
  have hfold : (if (x ^^^ y).toBitVec.msb then polynomial else 0)
      = (if x.toBitVec.msb then polynomial else 0) ^^^ (if y.toBitVec.msb then polynomial else 0) := by
    rw [UInt16.toBitVec_xor, BitVec.msb_xor]
    cases x.toBitVec.msb <;> cases y.toBitVec.msb <;> decide
  rw [shift_eq, shift_eq, shift_eq, hfold, UInt16.shiftLeft_xor]
  ac_rfl

/-- The topmost bit of a register is clear if the register is low enough. -/
theorem msb_eq_false_iff (register : UInt16) :
    register.toBitVec.msb = false ↔ register.toNat < 2 ^ 15 := by
  rw [BitVec.msb_eq_decide, decide_eq_false_iff_not, Nat.not_le]
  exact Iff.rfl

/-- A register whose topmost bit is clear is only moved. -/
theorem shift_of_lt {register : UInt16} (h : register.toNat < 2 ^ 15) :
    shift register = register <<< 1 := by
  rw [shift, if_pos ((and_top_eq_zero_iff register).2 ((msb_eq_false_iff register).2 h))]

/-- A shift doubles a register whose topmost bit is clear. -/
theorem toNat_shift {register : UInt16} (h : register.toNat < 2 ^ 15) :
    (shift register).toNat = 2 * register.toNat := by
  have hone : (1 : UInt16).toNat % 16 = 1 := rfl
  rw [shift_of_lt h, UInt16.toNat_shiftLeft, hone, Nat.shiftLeft_eq, Nat.pow_one]
  omega

/-! ### Shifts in a row -/

/-- **Shifts in a row are linear.** -/
theorem iterate_shift_xor (n : Nat) (x y : UInt16) :
    shift^[n] (x ^^^ y) = shift^[n] x ^^^ shift^[n] y := by
  induction n generalizing x y with
  | zero => rfl
  | succ n ih => rw [Function.iterate_succ_apply, shift_xor, ih]; rfl

/-- Shifts in a row do nothing else to a register that loses no bit by them. -/
theorem toNat_iterate_shift (n : Nat) {register : UInt16} (h : register.toNat <<< n < 2 ^ 16) :
    (shift^[n] register).toNat = register.toNat <<< n := by
  induction n with
  | zero => rfl
  | succ n ih =>
    rw [Nat.shiftLeft_succ] at h ⊢
    have hbefore := ih (by omega)
    rw [Function.iterate_succ_apply', toNat_shift (by omega), hbefore]

/-- Eight shifts move a byte from the low end of the register to the high end. -/
theorem iterate_shift_byte (b : UInt8) : shift^[8] b.toUInt16 = b.toUInt16 <<< 8 := by
  have hb := b.toNat_lt
  have hbyte : b.toUInt16.toNat = b.toNat := b.toNat_toUInt16
  have hplaces : (8 : UInt16).toNat % 16 = 8 := rfl
  apply UInt16.toNat_inj.1
  have hfit : b.toUInt16.toNat <<< 8 < 2 ^ 16 := by
    rw [hbyte, Nat.shiftLeft_eq]
    omega
  rw [toNat_iterate_shift 8 hfit, UInt16.toNat_shiftLeft, hplaces, Nat.mod_eq_of_lt hfit]

/-- **Feeding a byte** is eight shifts of the register with the byte folded in at the high end. -/
theorem feed_eq (register : UInt16) (b : UInt8) :
    feed register b = shift^[8] (register ^^^ shift^[8] b.toUInt16) := by
  rw [iterate_shift_byte]
  rfl

end FlashImage.Crc
