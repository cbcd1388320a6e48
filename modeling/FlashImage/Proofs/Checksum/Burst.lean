import FlashImage.Proofs.Checksum.Serial
import Mathlib.Algebra.Group.Nat.Defs

/-!
# Bursts change the CRC

Two byte strings of the same length that differ only within sixteen bits in a row (`Burst`) never have the
same CRC, software or hardware, wherever in the strings those bits are (`software_ne`, `hardware_ne`).

The register does not forget: its step can be undone (`shift_injective`), since the polynomial has the bit
that no shift can set. So equal bits behind the burst keep two different registers apart. Equal bits in
front of it do not matter either, because they leave the same register in both strings, which goes into
the result as a summand (`foldl_clock`). What is left are sixteen bits that go into an empty register, and
an empty register has room for just those (`eq_of_foldl_clock`).

## Parts

* the step of the register can be undone;
* a register that is low enough keeps the bits that go in;
* the bits of a byte string, and strings that differ in some of them only;
* the two CRCs.
-/

namespace FlashImage

namespace Crc

/-! ### Nothing is lost -/

/-- Only an empty register is empty after a shift: the bit that is folded back in cannot be shifted out by
the same step. -/
theorem eq_zero_of_shift {register : UInt16} (h : shift register = 0) : register = 0 := by
  rw [shift_eq] at h
  by_cases hmsb : register.toBitVec.msb = true
  · rw [if_pos hmsb, UInt16.xor_eq_zero_iff] at h
    have hlow := congrArg (fun r : UInt16 => r.toBitVec.getLsbD 0) h
    simp [polynomial] at hlow
  · rw [Bool.not_eq_true, msb_eq_false_iff] at hmsb
    rw [← shift_eq] at h
    have hdouble := toNat_shift hmsb
    rw [h, UInt16.toNat_zero] at hdouble
    apply UInt16.toNat_inj.1
    rw [UInt16.toNat_zero]
    omega

/-- **A shift can be undone.** -/
theorem shift_injective : Function.Injective shift := by
  intro x y h
  have hzero : shift (x ^^^ y) = 0 := by rw [shift_xor, h, UInt16.xor_self]
  exact UInt16.xor_eq_zero_iff.1 (eq_zero_of_shift hzero)

/-- The same bits keep different registers apart. -/
theorem foldl_clock_injective (bits : List Bool) :
    Function.Injective fun register => bits.foldl clock register := by
  intro x y h
  dsimp only at h
  rw [foldl_clock, foldl_clock bits y, UInt16.xor_left_inj] at h
  exact shift_injective.iterate _ h

/-- **Bytes go into any register as they go into an empty one**, beside what is shifted up. -/
theorem run_eq (register : UInt16) (data : Bytes) :
    run register data = shift^[8 * data.length] register ^^^ run 0 data := by
  induction data generalizing register with
  | nil => exact UInt16.xor_zero.symm
  | cons b data ih =>
    have hfeed : feed register b = shift^[8] register ^^^ feed 0 b := by
      rw [feed_eq, feed_eq, UInt16.zero_xor, iterate_shift_xor]
    have hcount : 8 * (b :: data).length = 8 * data.length + 8 := by
      rw [List.length_cons, Nat.mul_succ]
    rw [run_cons, run_cons, ih, ih (feed 0 b), hfeed, iterate_shift_xor, hcount,
      Function.iterate_add_apply, UInt16.xor_assoc]

/-- The same bytes keep different registers apart. -/
theorem run_injective (data : Bytes) : Function.Injective fun register => run register data := by
  intro x y h
  dsimp only at h
  rw [run_eq, run_eq y, UInt16.xor_left_inj] at h
  exact shift_injective.iterate _ h

/-! ### What a low register keeps -/

/-- A bit goes in below the others, as long as none of them leaves. -/
theorem toNat_clock {register : UInt16} (h : register.toNat < 2 ^ 15) (bit : Bool) :
    (clock register bit).toNat = 2 * register.toNat + bit.toNat := by
  have hbit : bit.toUInt16.toNat = bit.toNat := by cases bit <;> rfl
  have hdouble : (shift register).toNat = register.toNat <<< 1 := by
    rw [toNat_shift h, Nat.shiftLeft_eq, Nat.mul_comm]
  rw [clock_eq, shift_of_lt h, ← shiftLeft_or, ← shift_of_lt h, UInt16.toNat_or, hdouble, hbit,
    ← Nat.shiftLeft_add_eq_or_of_lt (by cases bit <;> decide), ← hdouble, toNat_shift h]

/-- **A register keeps the bits that go in** as long as there is room for them: what comes out tells what
it was before, and each of the bits. -/
theorem eq_of_foldl_clock {bits bits' : List Bool} {x y : UInt16}
    (hlength : bits.length = bits'.length) (hx : (x.toNat + 1) * 2 ^ bits.length ≤ 2 ^ 16)
    (hy : (y.toNat + 1) * 2 ^ bits.length ≤ 2 ^ 16)
    (h : bits.foldl clock x = bits'.foldl clock y) : x = y ∧ bits = bits' := by
  induction bits generalizing bits' x y with
  | nil =>
    obtain rfl := List.eq_nil_of_length_eq_zero hlength.symm
    exact ⟨h, rfl⟩
  | cons bit bits ih =>
    obtain ⟨bit', bits', rfl⟩ := List.exists_cons_of_length_eq_add_one hlength.symm
    -- Room for one bit more is room for twice the number and one.
    have hroom {z : UInt16} (b : Bool) (hz : (z.toNat + 1) * 2 ^ (bits.length + 1) ≤ 2 ^ 16) :
        z.toNat < 2 ^ 15 ∧ ((clock z b).toNat + 1) * 2 ^ bits.length ≤ 2 ^ 16 := by
      have hpow : (z.toNat + 1) * 2 ^ (bits.length + 1) = (2 * z.toNat + 2) * 2 ^ bits.length := by
        rw [Nat.pow_succ', ← Nat.mul_assoc]
        congr 1
        omega
      have hone : 2 * z.toNat + 2 ≤ 2 ^ 16 :=
        Nat.le_trans (Nat.le_mul_of_pos_right _ (Nat.two_pow_pos _)) (hpow ▸ hz)
      have hlow : z.toNat < 2 ^ 15 := by omega
      refine ⟨hlow, Nat.le_trans (Nat.mul_le_mul_right _ ?_) (hpow ▸ hz)⟩
      rw [toNat_clock hlow]
      cases b <;> simp
    obtain ⟨hxlow, hxroom⟩ := hroom bit hx
    obtain ⟨hylow, hyroom⟩ := hroom bit' hy
    obtain ⟨hfirst, rfl⟩ := ih (Nat.succ.inj hlength) hxroom hyroom h
    have hnumber := congrArg UInt16.toNat hfirst
    rw [toNat_clock hxlow, toNat_clock hylow] at hnumber
    have hbit : bit = bit' := by
      cases bit <;> cases bit' <;> simp at hnumber ⊢ <;> omega
    subst hbit
    exact ⟨UInt16.toNat_inj.1 (by omega), rfl⟩

/-- **Bits that differ within sixteen in a row** leave different registers. -/
theorem foldl_clock_ne {bits bits' : List Bool} {first : Nat} (hlength : bits.length = bits'.length)
    (hne : bits ≠ bits') (hfront : bits.take first = bits'.take first)
    (hback : bits.drop (first + 16) = bits'.drop (first + 16)) (register : UInt16) :
    bits.foldl clock register ≠ bits'.foldl clock register := by
  intro h
  have hsplit (bs : List Bool) :
      bs = bs.take first ++ ((bs.drop first).take 16 ++ bs.drop (first + 16)) := by
    rw [← List.drop_drop, List.take_append_drop, List.take_append_drop]
  have hwindow : ((bits.drop first).take 16).length = ((bits'.drop first).take 16).length := by
    rw [List.length_take, List.length_take, List.length_drop, List.length_drop, hlength]
  rw [hsplit bits, hsplit bits', ← hfront, ← hback, List.foldl_append, List.foldl_append,
    List.foldl_append, List.foldl_append] at h
  -- The bits behind the window are the same, and so is what the bits in front of it left.
  have hsame := foldl_clock_injective _ h
  rw [foldl_clock, foldl_clock ((bits'.drop first).take 16), hwindow, UInt16.xor_right_inj] at hsame
  have hroom : ((0 : UInt16).toNat + 1) * 2 ^ ((bits.drop first).take 16).length ≤ 2 ^ 16 := by
    rw [UInt16.toNat_zero, Nat.zero_add, Nat.one_mul]
    exact Nat.pow_le_pow_right (by decide) (List.length_take_le 16 _)
  obtain ⟨-, hinside⟩ := eq_of_foldl_clock hwindow hroom hroom hsame
  apply hne
  rw [hsplit bits, hsplit bits', hfront, hback, hinside]

end Crc

/-! ### Byte strings bit by bit -/

namespace Bytes

/-- **The bits of a byte string**, most significant first in each byte. -/
def bits (bs : Bytes) : List Bool := bs.flatMap fun b => Crc.msbFirst b.toBitVec

@[simp] theorem bits_nil : bits [] = [] := rfl

theorem bits_cons (b : UInt8) (bs : Bytes) : bits (b :: bs) = Crc.msbFirst b.toBitVec ++ bits bs :=
  List.flatMap_cons

theorem bits_append (a b : Bytes) : bits (a ++ b) = bits a ++ bits b := List.flatMap_append

theorem length_msbFirst (b : UInt8) : (Crc.msbFirst b.toBitVec).length = 8 := by
  rw [Crc.msbFirst, List.length_map, List.length_range]

@[simp] theorem length_bits (bs : Bytes) : bs.bits.length = 8 * bs.length := by
  induction bs with
  | nil => rfl
  | cons b bs ih =>
    rw [bits_cons, List.length_append, length_msbFirst, ih, List.length_cons]
    omega

/-- The bits of a byte tell the byte. -/
theorem msbFirst_injective {x y : UInt8} (h : Crc.msbFirst x.toBitVec = Crc.msbFirst y.toBitVec) :
    x = y := by
  have hregister := congrArg (List.foldl Crc.clock 0) h
  rw [Crc.foldl_clock_byte, Crc.foldl_clock_byte] at hregister
  exact UInt8.toUInt16_inj.1 hregister

/-- **The bits of a byte string tell the string.** -/
theorem bits_inj {a b : Bytes} : a.bits = b.bits ↔ a = b := by
  refine ⟨fun h => ?_, fun h => by rw [h]⟩
  induction a generalizing b with
  | nil =>
    have hlength := congrArg List.length h
    rw [length_bits, length_bits, List.length_nil] at hlength
    exact (List.eq_nil_of_length_eq_zero (by omega)).symm
  | cons x a ih =>
    have hlength := congrArg List.length h
    rw [length_bits, length_bits, List.length_cons] at hlength
    obtain ⟨y, b, rfl⟩ := List.exists_cons_of_length_eq_add_one (n := a.length) (l := b) (by omega)
    rw [bits_cons, bits_cons] at h
    obtain ⟨hfirst, hrest⟩ := List.append_inj h (by rw [length_msbFirst, length_msbFirst])
    rw [msbFirst_injective hfirst, ih hrest]

/-- The first bytes are the first bits, eight for each. -/
theorem bits_take (bs : Bytes) (n : Nat) : bits (bs.take n) = bs.bits.take (8 * n) := by
  induction bs generalizing n with
  | nil => rw [List.take_nil, bits_nil, List.take_nil]
  | cons b bs ih =>
    cases n with
    | zero => rfl
    | succ n =>
      have hcount : 8 * (n + 1) = (Crc.msbFirst b.toBitVec).length + 8 * n := by
        rw [length_msbFirst]
        omega
      rw [List.take_succ_cons, bits_cons, bits_cons, ih, hcount, List.take_length_add_append]

/-- Bytes that are left out at the front are left-out bits, eight for each. -/
theorem bits_drop (bs : Bytes) (n : Nat) : bits (bs.drop n) = bs.bits.drop (8 * n) := by
  have hsplit : bits (bs.take n) ++ bits (bs.drop n) = bs.bits.take (8 * n) ++ bs.bits.drop (8 * n) := by
    rw [← bits_append, List.take_append_drop, List.take_append_drop]
  rw [bits_take] at hsplit
  exact List.append_cancel_left hsplit

end Bytes

/-- **Two byte strings that differ in a window only**: they have the same length, and every bit in which
they differ is one of the `count` bits from bit number `first` on. -/
structure DifferWithin (first count : Nat) (a b : Bytes) : Prop where
  length_eq : a.length = b.length
  window : ∀ k, a.bits[k]? ≠ b.bits[k]? → first ≤ k ∧ k < first + count

namespace DifferWithin

variable {first count : Nat} {a b : Bytes}

/-- There are no bits behind the last byte to be compared. -/
theorem iff_forall_lt : DifferWithin first count a b ↔ a.length = b.length ∧
    ∀ k < 8 * a.length, a.bits[k]? ≠ b.bits[k]? → first ≤ k ∧ k < first + count := by
  refine ⟨fun h => ⟨h.length_eq, fun k _ => h.window k⟩, fun ⟨hlength, hwindow⟩ => ⟨hlength, ?_⟩⟩
  intro k hk
  refine hwindow k ?_ hk
  by_contra hbehind
  rw [List.getElem?_eq_none (by rw [Bytes.length_bits]; omega),
    List.getElem?_eq_none (by rw [Bytes.length_bits]; omega)] at hk
  exact hk rfl

instance : Decidable (DifferWithin first count a b) := decidable_of_iff _ iff_forall_lt.symm

/-- In front of the window, the strings have the same bits. -/
theorem take_bits_eq (h : DifferWithin first count a b) {n : Nat} (hn : n ≤ first) :
    a.bits.take n = b.bits.take n := by
  refine List.ext_getElem? fun k => ?_
  rw [List.getElem?_take, List.getElem?_take]
  split
  · by_contra hk
    have hinside := h.window k hk
    omega
  · rfl

/-- Behind the window, the strings have the same bits. -/
theorem drop_bits_eq (h : DifferWithin first count a b) {n : Nat} (hn : first + count ≤ n) :
    a.bits.drop n = b.bits.drop n := by
  refine List.ext_getElem? fun k => ?_
  rw [List.getElem?_drop, List.getElem?_drop]
  by_contra hk
  have hinside := h.window _ hk
  omega

/-- In front of the window, the strings have the same bytes. -/
theorem take_eq (h : DifferWithin first count a b) {n : Nat} (hn : 8 * n ≤ first) :
    a.take n = b.take n := by
  rw [← Bytes.bits_inj, Bytes.bits_take, Bytes.bits_take, h.take_bits_eq hn]

/-- Behind the window, the strings have the same bytes. -/
theorem drop_eq (h : DifferWithin first count a b) {n : Nat} (hn : first + count ≤ 8 * n) :
    a.drop n = b.drop n := by
  rw [← Bytes.bits_inj, Bytes.bits_drop, Bytes.bits_drop, h.drop_bits_eq hn]

/-- The first bytes of the strings differ in the same window only. -/
theorem take (h : DifferWithin first count a b) (n : Nat) :
    DifferWithin first count (a.take n) (b.take n) := by
  refine ⟨by rw [List.length_take, List.length_take, h.length_eq], fun k hk => h.window k ?_⟩
  rw [Bytes.bits_take, Bytes.bits_take, List.getElem?_take, List.getElem?_take] at hk
  split at hk
  · exact hk
  · exact absurd rfl hk

end DifferWithin

/-- **A burst**: two different byte strings of the same length, with all bits in which they differ within
sixteen in a row. -/
structure Burst (a b : Bytes) : Prop where
  ne : a ≠ b
  within : ∃ first, DifferWithin first 16 a b

namespace Burst

variable {a b : Bytes}

theorem length_eq (h : Burst a b) : a.length = b.length := by
  obtain ⟨first, hwithin⟩ := h.within
  exact hwithin.length_eq

/-- A burst among the first bytes is a burst of the first bytes. -/
theorem take (h : Burst a b) {n : Nat} (hcovered : DifferWithin 0 (8 * n) a b) :
    Burst (a.take n) (b.take n) := by
  obtain ⟨first, hwithin⟩ := h.within
  refine ⟨fun hsame => h.ne ?_, first, hwithin.take n⟩
  have hback := hcovered.drop_eq (n := n) (by omega)
  rw [← List.take_append_drop n a, ← List.take_append_drop n b, hsame, hback]

end Burst

/-! ### The two CRCs -/

namespace Crc

variable {a b : Bytes}

/-- **A burst changes the register**, whatever was in it. -/
theorem run_ne (h : Burst a b) (register : UInt16) : run register a ≠ run register b := by
  obtain ⟨first, hwithin⟩ := h.within
  intro hrun
  -- The register goes in as a summand and drops out; the empty one that is left may be shifted as well.
  have hempty : (0 : UInt16) = shift^[16] 0 := by decide +kernel
  rw [run_eq, run_eq register b, h.length_eq, UInt16.xor_right_inj, hempty, run_iterate_shift,
    run_iterate_shift] at hrun
  have hlength : a.bits.length = b.bits.length := by
    rw [Bytes.length_bits, Bytes.length_bits, h.length_eq]
  exact foldl_clock_ne hlength (fun hbits => h.ne (Bytes.bits_inj.1 hbits))
    (hwithin.take_bits_eq (Nat.le_refl first)) (hwithin.drop_bits_eq (Nat.le_refl _)) 0
    (shift_injective.iterate 16 hrun)

/-- **A burst changes the hardware CRC.** -/
theorem hardware_ne (h : Burst a b) : hardware a ≠ hardware b := run_ne h 0xffff

/-- **A burst changes the software CRC.** The zero bytes behind it are as many in both strings. -/
theorem software_ne (h : Burst a b) : software a ≠ software b := by
  intro hcrc
  have hpadding : padding a = padding b := by rw [padding, padding, h.length_eq]
  rw [software, software, hpadding, UInt16.not_inj] at hcrc
  exact run_ne h 0xf6aa (run_injective _ hcrc)

end Crc

end FlashImage
