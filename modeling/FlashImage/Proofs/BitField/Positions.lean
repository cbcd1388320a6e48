import FlashImage.Proofs.BitField

/-!
# Fields bit by bit

A field covers the positions `lsb..=msb` of its dword. Setting it puts the low bits of a value at these
positions and leaves all others alone (`bit_replace`), and its value is what stands at these positions
(`testBit_get`). So a field that was set reads as what it was set to, and as long as fields have no
position in common, setting one of them does not show in another.

A record whose fields are all set, one after the other, is described by the same two facts: what stands
in the fields (`get_replaceAll`) and what stands outside of them (`bit_replaceAll`). Both together say
what becomes of reserved bits whose fields are set (`SpelledOut`).
-/

namespace FlashImage

/-! ### Ranges of bits -/

/-- Bits of a complement. -/
theorem testBit_not (word : UInt32) {k : Nat} (hk : k < 32) :
    (~~~word).toNat.testBit k = !word.toNat.testBit k := by
  rw [← UInt32.toNat_toBitVec, ← UInt32.toNat_toBitVec, BitVec.testBit_toNat, BitVec.testBit_toNat,
    UInt32.toBitVec_not, BitVec.getLsbD_not]
  simp [hk]

/-- There are no bits above a dword. -/
theorem testBit_of_le (word : UInt32) {k : Nat} (hk : 32 ≤ k) : word.toNat.testBit k = false :=
  Nat.testBit_lt_two_pow (Nat.lt_of_lt_of_le word.toNat_lt (Nat.pow_le_pow_right (by decide) hk))

/-- **Two dwords with the same bits** are the same. -/
theorem eq_of_testBit_eq {v w : UInt32}
    (h : ∀ k < 32, v.toNat.testBit k = w.toNat.testBit k) : v = w := by
  apply UInt32.toNat_inj.1
  apply Nat.eq_of_testBit_eq
  intro k
  rcases Nat.lt_or_ge k 32 with hk | hk
  · exact h k hk
  · rw [testBit_of_le v hk, testBit_of_le w hk]

/-- The mask of a range has exactly the bits of the range. -/
theorem testBit_mask {msb lsb : Nat} (hmsb : msb < 32) (k : Nat) :
    (mask msb lsb).toNat.testBit k = decide (lsb ≤ k ∧ k ≤ msb) := by
  rw [mask, UInt32.toNat_ofNat', Nat.testBit_mod_two_pow, Nat.testBit_shiftLeft,
    Nat.one_shiftLeft, Nat.testBit_two_pow_sub_one]
  by_cases hlsb : lsb ≤ k <;> by_cases hk : k ≤ msb <;> simp [hlsb, hk] <;> omega

/-- **Bits after a replacement**: the value's within the range, the old ones outside of it. -/
theorem testBit_setBits (word value : UInt32) {msb lsb : Nat} (hle : lsb ≤ msb) (hmsb : msb < 32)
    {k : Nat} (hk : k < 32) :
    (setBits word msb lsb value).toNat.testBit k
      = if lsb ≤ k ∧ k ≤ msb then value.toNat.testBit (k - lsb) else word.toNat.testBit k := by
  have hshift : (UInt32.ofNat lsb).toNat % 32 = lsb := by
    rw [UInt32.toNat_ofNat']
    omega
  rw [setBits, UInt32.toNat_or, UInt32.toNat_and, UInt32.toNat_and, Nat.testBit_or, Nat.testBit_and,
    Nat.testBit_and, testBit_not _ hk, testBit_mask hmsb, UInt32.toNat_shiftLeft, hshift,
    Nat.testBit_mod_two_pow, Nat.testBit_shiftLeft]
  split
  · next h => simp [h, hk]
  · next h => simp [h]

/-- **Bits of a range**, moved down. -/
theorem testBit_bits (word : UInt32) {msb lsb : Nat} (hle : lsb ≤ msb) (hmsb : msb < 32) (k : Nat) :
    (bits word msb lsb).toNat.testBit k
      = (decide (k < msb - lsb + 1) && word.toNat.testBit (lsb + k)) := by
  rw [toNat_bits word hle hmsb, Nat.testBit_mod_two_pow, Nat.testBit_div_two_pow,
    show msb + 1 - lsb = msb - lsb + 1 by omega, Nat.add_comm k lsb]

/-! ### One field of a record -/

/-- **The bit** at position `k` of dword number `i`. -/
def bitOf (dwords : List UInt32) (i k : Nat) : Bool := (dwords[i]?.getD 0).toNat.testBit k

theorem bitOf_of_lt {dwords : List UInt32} {i : Nat} (hi : i < dwords.length) (k : Nat) :
    bitOf dwords i k = dwords[i].toNat.testBit k := by
  rw [bitOf, List.getElem?_eq_getElem hi, Option.getD_some]

/-- Two records of one length with the same bits are the same. -/
theorem eq_of_bitOf_eq {r s : List UInt32} (hlength : r.length = s.length)
    (h : ∀ i k, i < r.length → k < 32 → bitOf r i k = bitOf s i k) : r = s := by
  refine List.ext_getElem hlength fun i hr hs => eq_of_testBit_eq fun k hk => ?_
  have hbit := h i k hr hk
  rwa [bitOf_of_lt hr, bitOf_of_lt hs] at hbit

namespace BitField

/-- **The positions of a field.** -/
def Covers (f : BitField) (i k : Nat) : Prop := f.dword = i ∧ f.lsb ≤ k ∧ k ≤ f.msb

instance (f : BitField) (i k : Nat) : Decidable (f.Covers i k) :=
  inferInstanceAs (Decidable (_ ∧ _ ∧ _))

/-- **Two fields without a common position.** -/
def Disjoint (f g : BitField) : Prop := f.dword = g.dword → f.msb < g.lsb ∨ g.msb < f.lsb

instance (f g : BitField) : Decidable (f.Disjoint g) := inferInstanceAs (Decidable (_ → _))

theorem Disjoint.symm {f g : BitField} (h : f.Disjoint g) : g.Disjoint f :=
  fun hdword => (h hdword.symm).symm

/-- A position of one of two disjoint fields is not one of the other. -/
theorem Disjoint.not_covers {f g : BitField} (h : f.Disjoint g) {i k : Nat} (hf : f.Covers i k) :
    ¬ g.Covers i k := by
  rintro ⟨hg, hlsb, hmsb⟩
  obtain ⟨hdword, hlsb', hmsb'⟩ := hf
  rcases h (hdword.trans hg.symm) with h | h <;> omega

/-- The positions of a field are within a dword. -/
theorem lt_of_covers {f : BitField} {i k : Nat} (h : f.Covers i k) : k < 32 :=
  Nat.lt_of_le_of_lt h.2.2 f.msb_lt

/-- The number of bits of a field is at most that of a dword. -/
theorem lsb_add_width (f : BitField) : f.lsb + f.width = f.msb + 1 := by
  have hle := f.lsb_le_msb
  rw [width]
  omega

/-- The positions of a field, counted from its lowest one. -/
theorem covers_add {f : BitField} {k : Nat} (h : k < f.width) : f.Covers f.dword (f.lsb + k) := by
  have hwidth := f.lsb_add_width
  exact ⟨rfl, by omega, by omega⟩

/-- **The largest value of a field** has as many bits as the field. -/
theorem toNat_limit (f : BitField) : f.limit.toNat = 2 ^ f.width - 1 := by
  have hlimit : f.limit = bits 0xffffffff f.msb f.lsb := by
    rw [limit, mask, bits, show (0xffffffff : UInt32) = -1 from rfl, UInt32.neg_one_and]
  apply Nat.eq_of_testBit_eq
  intro k
  have hwidth := f.lsb_add_width
  have hmsb := f.msb_lt
  rw [hlimit, testBit_bits _ f.lsb_le_msb f.msb_lt, ← width, Nat.testBit_two_pow_sub_one,
    show (0xffffffff : UInt32).toNat = 2 ^ 32 - 1 from rfl, Nat.testBit_two_pow_sub_one]
  by_cases hk : k < f.width
  · have hword : f.lsb + k < 32 := by omega
    simp [hk, hword]
  · simp [hk]

/-- **A value fits a field** if it has no more bits than the field. -/
theorem le_limit_iff (f : BitField) (value : UInt32) :
    value ≤ f.limit ↔ value.toNat < 2 ^ f.width := by
  have hpos := Nat.two_pow_pos f.width
  rw [UInt32.le_iff_toNat_le, toNat_limit]
  omega

/-- **Bits after setting a field.** -/
theorem bitOf_replace (f : BitField) (dwords : List UInt32) (value : UInt32) {i k : Nat}
    (hi : i < dwords.length) (hk : k < 32) :
    bitOf (f.replace dwords value) i k
      = if f.Covers i k then value.toNat.testBit (k - f.lsb) else bitOf dwords i k := by
  have hi' : i < (f.replace dwords value).length := by rwa [length_replace]
  rw [bitOf_of_lt hi', bitOf_of_lt hi]
  simp only [replace, List.getElem_modify]
  by_cases hdword : f.dword = i
  · rw [if_pos hdword, testBit_setBits _ _ f.lsb_le_msb f.msb_lt hk]
    simp only [Covers, hdword, true_and]
  · rw [if_neg hdword, if_neg fun h => hdword h.1]

/-- **The value of a field** is what stands at its positions. -/
theorem testBit_get (f : BitField) (dwords : List UInt32) (k : Nat) :
    (f.get dwords).toNat.testBit k = (decide (k < f.width) && bitOf dwords f.dword (f.lsb + k)) := by
  rw [get, bitOf]
  cases dwords[f.dword]? with
  | some word => exact testBit_bits word f.lsb_le_msb f.msb_lt k
  | none => simp

/-- Records with the same bits in a field have the same value there. -/
theorem get_congr {f : BitField} {r s : List UInt32}
    (h : ∀ k, f.Covers f.dword k → bitOf r f.dword k = bitOf s f.dword k) : f.get r = f.get s := by
  refine eq_of_testBit_eq fun k _ => ?_
  rw [testBit_get, testBit_get]
  by_cases hk : k < f.width
  · rw [h _ (covers_add hk)]
  · simp [hk]

/-- **A field reads as what it was set to.** -/
theorem get_replace_self {f : BitField} {dwords : List UInt32} (hf : f.dword < dwords.length)
    {value : UInt32} (hvalue : value ≤ f.limit) : f.get (f.replace dwords value) = value := by
  have hfits := (f.le_limit_iff value).1 hvalue
  refine eq_of_testBit_eq fun k hk => ?_
  rw [testBit_get]
  by_cases hwidth : k < f.width
  · have hcovers := covers_add hwidth
    rw [bitOf_replace f dwords value hf (lt_of_covers hcovers), if_pos hcovers, Nat.add_sub_cancel_left]
    simp [hwidth]
  · -- Above the field, neither side has any bits.
    have hpow : 2 ^ f.width ≤ 2 ^ k := Nat.pow_le_pow_right (by decide) (Nat.le_of_not_lt hwidth)
    rw [Nat.testBit_lt_two_pow (Nat.lt_of_lt_of_le hfits hpow)]
    simp [hwidth]

/-- **Setting a field does not show in another one** that has no position in common with it. -/
theorem get_replace_of_disjoint {f g : BitField} (h : f.Disjoint g) {dwords : List UInt32}
    (hf : f.dword < dwords.length) (value : UInt32) :
    f.get (g.replace dwords value) = f.get dwords := by
  refine get_congr fun k hk => ?_
  rw [bitOf_replace g dwords value hf (lt_of_covers hk), if_neg (h.not_covers hk)]

end BitField

/-! ### What fields cover together -/

/-- **A position outside of all fields.** -/
def Outside (fields : List BitField) (i k : Nat) : Prop := ∀ f ∈ fields, ¬ f.Covers i k

instance (fields : List BitField) (i k : Nat) : Decidable (Outside fields i k) :=
  inferInstanceAs (Decidable (∀ f ∈ fields, _))

/-- The mask of some fields has exactly the positions that one of them covers. -/
theorem testBit_coveredMask (fields : List BitField) (i k : Nat) :
    (coveredMask fields i).toNat.testBit k = decide (¬ Outside fields i k) := by
  induction fields with
  | nil => simp [coveredMask, Outside]
  | cons f fields ih =>
    have houtside : Outside (f :: fields) i k ↔ ¬ f.Covers i k ∧ Outside fields i k :=
      List.forall_mem_cons
    rw [coveredMask_cons]
    by_cases hdword : f.dword = i
    · rw [if_pos hdword, UInt32.toNat_or, Nat.testBit_or, ih, BitField.mask, testBit_mask f.msb_lt]
      simp [houtside, BitField.Covers, hdword, Decidable.imp_iff_not_or]
    · rw [if_neg hdword, ih]
      simp [houtside, BitField.Covers, hdword]

/-- **Reserved bits** are the bits outside of all fields. -/
theorem bitOf_reservedBits (fields : List BitField) {dwords : List UInt32} {i k : Nat}
    (hi : i < dwords.length) (hk : k < 32) :
    bitOf (reservedBits fields dwords) i k
      = (decide (Outside fields i k) && bitOf dwords i k) := by
  have hi' : i < (reservedBits fields dwords).length := by rwa [length_reservedBits]
  rw [bitOf_of_lt hi', bitOf_of_lt hi]
  simp only [reservedBits, List.getElem_mapIdx, UInt32.toNat_and, Nat.testBit_and, testBit_not _ hk,
    testBit_coveredMask]
  by_cases houtside : Outside fields i k <;> simp [houtside]

/-! ### Records whose fields are set -/

namespace TocRecord

variable {r s : TocRecord} {values : List (BitField × UInt32)}

/-- **A bit of a record.** -/
def bit (r : TocRecord) (i k : Nat) : Bool := bitOf r.dwords i k

/-- Two records with the same bits are the same. -/
theorem eq_of_bit_eq (h : ∀ i k, i < 8 → k < 32 → r.bit i k = s.bit i k) : r = s := by
  obtain ⟨r, hr⟩ := r
  obtain ⟨s, hs⟩ := s
  congr 1
  exact eq_of_bitOf_eq (hr.trans hs.symm) fun i k hi hk => h i k (hr ▸ hi) hk

theorem bit_replace (r : TocRecord) (f : BitField) (value : UInt32) {i k : Nat} (hi : i < 8)
    (hk : k < 32) :
    (r.replace f value).bit i k
      = if f.Covers i k then value.toNat.testBit (k - f.lsb) else r.bit i k :=
  f.bitOf_replace r.dwords value (by rwa [r.length_dwords]) hk

theorem bit_reserved (r : TocRecord) (fields : List BitField) {i k : Nat} (hi : i < 8) (hk : k < 32) :
    (r.reserved fields).bit i k = (decide (Outside fields i k) && r.bit i k) :=
  bitOf_reservedBits fields (by rwa [r.length_dwords]) hk

/-- **Records that agree outside of some fields** have the same reserved bits. -/
theorem reserved_congr {fields : List BitField}
    (h : ∀ i k, i < 8 → k < 32 → Outside fields i k → r.bit i k = s.bit i k) :
    r.reserved fields = s.reserved fields := by
  refine eq_of_bit_eq fun i k hi hk => ?_
  rw [bit_reserved r fields hi hk, bit_reserved s fields hi hk]
  by_cases houtside : Outside fields i k
  · rw [h i k hi hk houtside]
  · simp [houtside]

/-- **Setting a field** is refused exactly if the value does not fit. -/
theorem set_eq (r : TocRecord) {f : BitField} (hf : f.dword < 8) (value : UInt32) :
    r.set f value
      = if value ≤ f.limit then .ok (r.replace f value)
        else .error (.fieldOverflow f.name value.toNat f.width) := by
  have hset : f.set r.dwords value
      = if value ≤ f.limit then .ok (f.replace r.dwords value)
        else .error (.fieldOverflow f.name value.toNat f.width) := by
    have hlength : f.dword < r.dwords.length := by rwa [r.length_dwords]
    rw [BitField.set, if_pos hlength]
    by_cases hvalue : value ≤ f.limit
    · rw [if_neg (UInt32.not_lt.2 hvalue), if_pos hvalue]
    · rw [if_pos (UInt32.not_le.1 hvalue), if_neg hvalue]
  rw [set]
  split
  · next dwords h =>
    rw [hset] at h
    split at h
    · next hvalue =>
      cases h
      rw [if_pos hvalue]
      rfl
    · cases h
  · next e h =>
    rw [hset] at h
    split at h
    · cases h
    · next hvalue =>
      cases h
      rw [if_neg hvalue]

/-- A record with some fields replaced, one after the other. -/
def replaceAll (r : TocRecord) (values : List (BitField × UInt32)) : TocRecord :=
  values.foldl (fun r p => r.replace p.1 p.2) r

/-- **Setting all fields** succeeds exactly if each value fits its own field. -/
theorem setAll_eq (r : TocRecord) (hdword : ∀ p ∈ values, p.1.dword < 8) :
    r.setAll values
      = match values.find? fun p => ¬ p.2 ≤ p.1.limit with
        | none => .ok (r.replaceAll values)
        | some p => .error (.fieldOverflow p.1.name p.2.toNat p.1.width) := by
  induction values generalizing r with
  | nil => rfl
  | cons p values ih =>
    obtain ⟨hp, hdword⟩ := List.forall_mem_cons.1 hdword
    show (r.set p.1 p.2).bind (fun r => r.setAll values) = _
    rw [set_eq r hp]
    by_cases hfits : p.2 ≤ p.1.limit
    · rw [if_pos hfits, List.find?_cons_of_neg (by simpa using hfits)]
      exact ih _ hdword
    · rw [if_neg hfits, List.find?_cons_of_pos (by simpa using hfits)]
      rfl

/-- **Bits outside of the fields that are set** stay as they are. -/
theorem bit_replaceAll {i k : Nat} (hi : i < 8) (hk : k < 32)
    (houtside : ∀ p ∈ values, ¬ p.1.Covers i k) : (r.replaceAll values).bit i k = r.bit i k := by
  induction values generalizing r with
  | nil => rfl
  | cons p values ih =>
    obtain ⟨hp, houtside⟩ := List.forall_mem_cons.1 houtside
    show ((r.replace p.1 p.2).replaceAll values).bit i k = _
    rw [ih houtside, bit_replace r p.1 p.2 hi hk, if_neg hp]

/-- A field that is disjoint from all that are set keeps its value. -/
theorem get_replaceAll_of_disjoint {f : BitField} (hf : f.dword < 8)
    (h : ∀ p ∈ values, f.Disjoint p.1) : f.get (r.replaceAll values).dwords = f.get r.dwords := by
  induction values generalizing r with
  | nil => rfl
  | cons p values ih =>
    obtain ⟨hp, h⟩ := List.forall_mem_cons.1 h
    show f.get ((r.replace p.1 p.2).replaceAll values).dwords = f.get r.dwords
    rw [ih h]
    exact BitField.get_replace_of_disjoint hp (by rwa [r.length_dwords]) p.2

/-- **Each field reads as its value** after all of them were set. -/
theorem get_replaceAll (hdword : ∀ p ∈ values, p.1.dword < 8)
    (hdisjoint : values.Pairwise fun p q => p.1.Disjoint q.1)
    (hfits : ∀ p ∈ values, p.2 ≤ p.1.limit) :
    ∀ p ∈ values, p.1.get (r.replaceAll values).dwords = p.2 := by
  induction values generalizing r with
  | nil => simp
  | cons p values ih =>
    obtain ⟨hp, hdword⟩ := List.forall_mem_cons.1 hdword
    obtain ⟨hfirst, hdisjoint⟩ := List.pairwise_cons.1 hdisjoint
    obtain ⟨hfit, hfits⟩ := List.forall_mem_cons.1 hfits
    -- The first field is set, and none of the others touches it again.
    refine List.forall_mem_cons.2 ⟨?_, ih hdword hdisjoint hfits⟩
    show p.1.get ((r.replace p.1 p.2).replaceAll values).dwords = p.2
    rw [get_replaceAll_of_disjoint hp hfirst]
    exact BitField.get_replace_self (by rwa [r.length_dwords]) hfit

/-- **The record that some values and some reserved bits spell out**: the values stand in their fields,
and the reserved bits outside of all fields. -/
structure SpelledOut (fields : List BitField) (values : List (BitField × UInt32))
    (reserved s : TocRecord) : Prop where
  get : ∀ p ∈ values, p.1.get s.dwords = p.2
  bit : ∀ i k, i < 8 → k < 32 → Outside fields i k → s.bit i k = reserved.bit i k

section Fields

variable {fields : List BitField} (hfields : values.map Prod.fst = fields)
  (hdword : ∀ f ∈ fields, f.dword < 8)
include hfields hdword

/-- **Setting all fields of a record** succeeds exactly if all values fit. -/
theorem exists_setAll_iff (r : TocRecord) :
    (∃ s, r.setAll values = .ok s) ↔ ∀ p ∈ values, p.2 ≤ p.1.limit := by
  subst hfields
  rw [setAll_eq r (List.forall_mem_map.1 hdword)]
  split
  · next hnone =>
    have hfits : ∀ p ∈ values, p.2 ≤ p.1.limit := by simpa using hnone
    exact ⟨fun _ => hfits, fun _ => ⟨_, rfl⟩⟩
  · next p hp =>
    have hmisfit : ¬ p.2 ≤ p.1.limit := by simpa using List.find?_some hp
    exact ⟨fun ⟨s, hs⟩ => (nomatch hs), fun h => absurd (h p (List.mem_of_find?_eq_some hp)) hmisfit⟩

/-- **Setting all fields of reserved bits** gives the record that is spelled out. -/
theorem spelledOut_of_setAll (hdisjoint : fields.Pairwise BitField.Disjoint)
    (h : (r.reserved fields).setAll values = .ok s) : SpelledOut fields values r s := by
  have hfits := (exists_setAll_iff hfields hdword _).1 ⟨s, h⟩
  subst hfields
  have hdword := List.forall_mem_map.1 hdword
  have hnone : values.find? (fun p => ¬ p.2 ≤ p.1.limit) = none :=
    List.find?_eq_none.2 fun p hp => by simpa using hfits p hp
  rw [setAll_eq _ hdword, hnone] at h
  cases h
  refine ⟨get_replaceAll hdword (List.pairwise_map.1 hdisjoint) hfits, fun i k hi hk houtside => ?_⟩
  rw [bit_replaceAll hi hk fun p hp => houtside p.1 (List.mem_map_of_mem hp), bit_reserved r _ hi hk,
    decide_eq_true houtside, Bool.true_and]

end Fields

end TocRecord

end FlashImage
