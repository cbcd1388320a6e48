import FlashImage.BitField
import FlashImage.Toc.Record
import Mathlib.Algebra.Group.Nat.Defs

/-!
# Records are what their fields and their reserved bits say

A record can be taken apart into the values of its fields and the bits that no field covers. Starting
from those bits and setting one field after the other gives the record back (`setAll_get`), whichever
fields there are and whether or not they overlap.

What carries it through the list of fields is one statement about the fields that are still to come:
outside of them, the record is already what it should be (`AgreeOutside`).
-/

namespace FlashImage

/-! ### One field of one dword -/

/-- Nothing below a field belongs to its mask. -/
theorem testBit_mask_of_lt {msb lsb i : Nat} (h : i < lsb) :
    (mask msb lsb).toNat.testBit i = false := by
  rw [mask, UInt32.toNat_ofNat', Nat.testBit_mod_two_pow, Nat.testBit_shiftLeft]
  simp [Nat.not_le.2 h]

/-- The bits of a field can be shifted down and up again. -/
theorem bits_shiftLeft (word : UInt32) {msb lsb : Nat} (hlsb : lsb < 32) :
    bits word msb lsb <<< UInt32.ofNat lsb = word &&& mask msb lsb := by
  have hshift : (UInt32.ofNat lsb).toNat % 32 = lsb := by
    rw [UInt32.toNat_ofNat']
    omega
  -- Bit by bit: above the word nothing is set, below the field the mask has no bits.
  apply UInt32.toNat_inj.1
  apply Nat.eq_of_testBit_eq
  intro i
  rw [bits, UInt32.toNat_shiftLeft, UInt32.toNat_shiftRight, hshift, UInt32.toNat_and,
    Nat.testBit_mod_two_pow, Nat.testBit_shiftLeft, Nat.testBit_shiftRight, Nat.testBit_and]
  by_cases hi : lsb ≤ i
  · by_cases hword : i < 32
    · simp [hi, hword]
    · have hzero : word.toNat.testBit i = false :=
        Nat.testBit_lt_two_pow (Nat.lt_of_lt_of_le word.toNat_lt
          (Nat.pow_le_pow_right (by decide) (Nat.le_of_not_lt hword)))
      simp [hi, hword, hzero]
  · simp [hi, testBit_mask_of_lt (Nat.lt_of_not_le hi)]

/-- **The value of a field** is what is left of the dword without the bits below it and above it. -/
theorem toNat_bits (word : UInt32) {msb lsb : Nat} (hle : lsb ≤ msb) (hmsb : msb < 32) :
    (bits word msb lsb).toNat = word.toNat / 2 ^ lsb % 2 ^ (msb + 1 - lsb) := by
  have hshift : (UInt32.ofNat lsb).toNat % 32 = lsb := by
    rw [UInt32.toNat_ofNat']
    omega
  have hfit : (1 <<< (msb + 1 - lsb) - 1) <<< lsb < 2 ^ 32 := by
    have hpow : 2 ^ (msb + 1 - lsb) * 2 ^ lsb ≤ 2 ^ 32 := by
      rw [← Nat.pow_add]
      exact Nat.pow_le_pow_right (by decide) (by omega)
    have hpos := Nat.two_pow_pos lsb
    rw [Nat.shiftLeft_eq, Nat.shiftLeft_eq, Nat.one_mul, Nat.sub_mul]
    omega
  have hmask : (mask msb lsb).toNat >>> lsb = 2 ^ (msb + 1 - lsb) - 1 := by
    rw [mask, UInt32.toNat_ofNat', Nat.mod_eq_of_lt hfit, Nat.shiftLeft_shiftRight, Nat.shiftLeft_eq,
      Nat.one_mul]
  rw [bits, UInt32.toNat_shiftRight, UInt32.toNat_and, hshift, Nat.shiftRight_and_distrib, hmask,
    Nat.and_two_pow_sub_one_eq_mod, Nat.shiftRight_eq_div_pow]

/-- A field set to what another dword has there is a copy of those bits. -/
theorem setBits_bits (word other : UInt32) {msb lsb : Nat} (hlsb : lsb < 32) :
    setBits word msb lsb (bits other msb lsb)
      = (word &&& ~~~(mask msb lsb)) ||| (other &&& mask msb lsb) := by
  rw [setBits, bits_shiftLeft other hlsb, UInt32.and_assoc, UInt32.and_self]

/-- The word of a field in the lower half of its dword. -/
theorem toUInt16_bits_low (word : UInt32) : (bits word 15 0).toUInt16 = word.toUInt16 := by
  apply UInt16.toNat_inj.1
  rw [UInt32.toNat_toUInt16, toNat_bits word (by decide) (by decide), UInt32.toNat_toUInt16, Nat.pow_zero,
    Nat.div_one, Nat.mod_mod]

/-- Clearing the lower half of a dword. -/
theorem toNat_setBits_low (word : UInt32) :
    (setBits word 15 0 0).toNat = word.toNat / 2 ^ 16 * 2 ^ 16 := by
  have hmask : ~~~(mask 15 0) = mask 31 16 := by decide
  have hshift : (UInt32.ofNat 16).toNat % 32 = 16 := by decide
  have hlt := word.toNat_lt
  rw [setBits, UInt32.zero_shiftLeft, UInt32.zero_and, UInt32.or_zero, hmask,
    ← bits_shiftLeft word (by decide), UInt32.toNat_shiftLeft, hshift,
    toNat_bits word (by decide) (by decide), Nat.shiftLeft_eq]
  omega

namespace BitField

/-- The value of a field never exceeds its limit. -/
theorem get_le_limit (f : BitField) (dwords : List UInt32) : f.get dwords ≤ f.limit := by
  rw [get]
  split
  · rw [UInt32.le_iff_toNat_le, bits, limit, UInt32.toNat_shiftRight, UInt32.toNat_shiftRight,
      UInt32.toNat_and, Nat.shiftRight_eq_div_pow, Nat.shiftRight_eq_div_pow]
    exact Nat.div_le_div_right Nat.and_le_right
  · exact UInt32.zero_le

end BitField

/-! ### Fields of a record -/

/-- The bits that a field and some others cover. -/
theorem coveredMask_cons (f : BitField) (fields : List BitField) (i : Nat) :
    coveredMask (f :: fields) i
      = if f.dword = i then f.mask ||| coveredMask fields i else coveredMask fields i := by
  -- The fold starts from zero, so the first mask can be taken out of it.
  have hfold (fs : List BitField) (m : UInt32) :
      fs.foldl (fun m f => m ||| f.mask) m = m ||| fs.foldl (fun m f => m ||| f.mask) 0 := by
    induction fs generalizing m with
    | nil => rw [List.foldl_nil, List.foldl_nil, UInt32.or_zero]
    | cons g fs ih =>
      rw [List.foldl_cons, List.foldl_cons, ih, ih (0 ||| g.mask), UInt32.zero_or, UInt32.or_assoc]
  rw [coveredMask, coveredMask]
  by_cases h : f.dword = i
  · rw [List.filter_cons_of_pos (by simpa using h), List.foldl_cons, hfold, UInt32.zero_or, if_pos h]
  · rw [List.filter_cons_of_neg (by simpa using h), if_neg h]

/-- Copying the bits of a mask makes two dwords agree there, and keeps what they agreed on. -/
theorem and_not_of_copy {word other m covered : UInt32}
    (h : word &&& ~~~(m ||| covered) = other &&& ~~~(m ||| covered)) :
    ((word &&& ~~~m) ||| (other &&& m)) &&& ~~~covered = other &&& ~~~covered := by
  apply UInt32.toBitVec_inj.1
  apply BitVec.eq_of_getLsbD_eq
  intro i hi
  have hbit := congrArg (fun x : UInt32 => x.toBitVec.getLsbD i) h
  simp only [UInt32.toBitVec_and, UInt32.toBitVec_not, UInt32.toBitVec_or, BitVec.getLsbD_and,
    BitVec.getLsbD_not, BitVec.getLsbD_or, hi, decide_true, Bool.true_and] at hbit ⊢
  -- What is left is about four bits, one from each word.
  revert hbit
  cases word.toBitVec.getLsbD i <;> cases other.toBitVec.getLsbD i <;>
    cases m.toBitVec.getLsbD i <;> cases covered.toBitVec.getLsbD i <;> decide

/-- **Two records agree outside of some fields.** -/
def AgreeOutside (fields : List BitField) (r s : List UInt32) : Prop :=
  r.length = s.length ∧ ∀ i (hr : i < r.length) (hs : i < s.length),
    r[i] &&& ~~~(coveredMask fields i) = s[i] &&& ~~~(coveredMask fields i)

namespace AgreeOutside

/-- The reserved bits of a record are what it is outside of its fields. -/
theorem reservedBits (fields : List BitField) (dwords : List UInt32) :
    AgreeOutside fields (reservedBits fields dwords) dwords := by
  refine ⟨length_reservedBits fields dwords, fun i hr hs => ?_⟩
  simp only [FlashImage.reservedBits, List.getElem_mapIdx, UInt32.and_assoc, UInt32.and_self]

/-- Records that agree outside of no fields at all are the same. -/
theorem eq {r s : List UInt32} (h : AgreeOutside [] r s) : r = s := by
  obtain ⟨hlength, hagree⟩ := h
  refine List.ext_getElem hlength fun i hr hs => ?_
  have hdword := hagree i hr hs
  rwa [show coveredMask [] i = 0 from rfl, show ~~~(0 : UInt32) = -1 from rfl, UInt32.and_neg_one,
    UInt32.and_neg_one] at hdword

/-- **One field less.** Setting a field to what the other record has there works, and the two agree in
that field from then on. -/
theorem set {f : BitField} {fields : List BitField} {r s : List UInt32}
    (h : AgreeOutside (f :: fields) r s) (hf : f.dword < r.length) :
    f.set r (f.get s) = .ok (f.replace r (f.get s))
      ∧ AgreeOutside fields (f.replace r (f.get s)) s := by
  obtain ⟨hlength, hagree⟩ := h
  refine ⟨?_, by rw [BitField.length_replace, hlength], fun i hr hs => ?_⟩
  · rw [BitField.set, if_neg (UInt32.not_lt.2 (f.get_le_limit s)), if_pos hf]
  -- A dword is the one the field is in, or it is not touched.
  have hdword := hagree i (by rwa [BitField.length_replace] at hr) hs
  rw [coveredMask_cons] at hdword
  simp only [BitField.replace, List.getElem_modify]
  split
  · next hi =>
    subst hi
    rw [if_pos rfl] at hdword
    have hget : f.get s = bits s[f.dword] f.msb f.lsb := by
      simp only [BitField.get, List.getElem?_eq_getElem hs]
    have hlsb : f.lsb < 32 := Nat.lt_of_le_of_lt f.lsb_le_msb f.msb_lt
    simp only [hget, setBits_bits _ _ hlsb]
    exact and_not_of_copy hdword
  · next hi =>
    rwa [if_neg hi] at hdword

end AgreeOutside

namespace TocRecord

/-- **Setting all fields** of one record to what another one has there gives that other record, if the
two agree elsewhere. -/
theorem setAll_of_agreeOutside {fields : List BitField} {r s : TocRecord}
    (h : AgreeOutside fields r.dwords s.dwords) (hfields : ∀ f ∈ fields, f.dword < 8) :
    r.setAll (fields.map fun f => (f, f.get s.dwords)) = .ok s := by
  induction fields generalizing r with
  | nil =>
    obtain ⟨r, hr⟩ := r
    obtain ⟨s, hs⟩ := s
    obtain rfl : r = s := h.eq
    rfl
  | cons f fields ih =>
    obtain ⟨hf, hfields⟩ := List.forall_mem_cons.1 hfields
    obtain ⟨hset, hagree⟩ := h.set (by rwa [r.length_dwords])
    -- Records are lists of a fixed length, so the step on lists has to be carried over.
    have hstep : r.set f (f.get s.dwords) = .ok (r.replace f (f.get s.dwords)) := by
      rw [TocRecord.set]
      split
      · next dwords hdwords =>
        rw [hset] at hdwords
        cases hdwords
        rfl
      · next e he =>
        rw [hset] at he
        cases he
    show (r.set f (f.get s.dwords)).bind _ = _
    rw [hstep]
    exact ih hagree hfields

/-- **A record is its reserved bits with its fields set.** -/
theorem setAll_get (r : TocRecord) (fields : List BitField) (h : ∀ f ∈ fields, f.dword < 8) :
    (r.reserved fields).setAll (fields.map fun f => (f, f.get r.dwords)) = .ok r :=
  setAll_of_agreeOutside (AgreeOutside.reservedBits fields r.dwords) h

/-- Reserved bits have no fields to clear. -/
theorem reserved_reserved (r : TocRecord) (fields : List BitField) :
    (r.reserved fields).reserved fields = r.reserved fields := by
  unfold reserved reservedBits
  congr 1
  refine List.ext_getElem (by simp) fun i h1 h2 => ?_
  simp only [List.getElem_mapIdx, UInt32.and_assoc, UInt32.and_self]

end TocRecord

end FlashImage
