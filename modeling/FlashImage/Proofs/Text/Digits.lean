import FlashImage.Json.Basic
import FlashImage.Proofs.Text.Ascii

/-!
# Numbers as digits

`Nat.base_induction` takes a number apart into its leading part and its last digit, which is also how
its digits are written. What is said here about written numbers follows from that: they consist of
letters and digits, a decimal one reads back as the number, and only zero starts with a zero.
-/

namespace FlashImage

/-! ### Digits as characters -/

/-- **What holds for every digit of a base** holds for the digits of a number. -/
theorem forall_mem_toDigits {p : Char → Prop} {b : Nat} (hb : 1 < b)
    (h : ∀ d < b, p (Nat.digitChar d)) (n : Nat) : ∀ c ∈ Nat.toDigits b n, p c := by
  induction n using Nat.base_induction b hb with
  | single m hm =>
    rw [Nat.toDigits_of_lt_base hm, List.forall_mem_singleton]
    exact h m hm
  | digit m k hk hm ih =>
    rw [← Nat.toDigits_append_toDigits hb hm hk, Nat.toDigits_of_lt_base hk, List.forall_mem_append,
      List.forall_mem_singleton]
    exact ⟨ih, h k hk⟩

/-- A decimal number is ASCII. -/
theorem isAscii_toDigits (n : Nat) : IsAscii (Nat.toDigits 10 n) :=
  forall_mem_toDigits (by decide) (by decide) n

/-- What holds for the digits of a number and for zero holds for the number with zeros in front. -/
theorem forall_mem_padFront {p : Char → Prop} {width : Nat} {cs : List Char} (hzero : p '0')
    (h : ∀ c ∈ cs, p c) : ∀ c ∈ Text.padFront '0' width cs, p c := by
  intro c hc
  rcases List.mem_append.1 hc with hc | hc
  · exact (List.mem_replicate.1 hc).2 ▸ hzero
  · exact h c hc

/-- A decimal number consists of letters and digits. -/
theorem isAlphanum_of_mem_decimal {n : Nat} : ∀ c ∈ (Text.decimal n).toList, c.isAlphanum = true := by
  rw [Text.decimal, String.toList_ofList]
  exact forall_mem_toDigits (by decide) (by decide) n

/-- A padded decimal number consists of letters and digits. -/
theorem isAlphanum_of_mem_decimalPad {width n : Nat} :
    ∀ c ∈ (Text.decimalPad width n).toList, c.isAlphanum = true := by
  rw [Text.decimalPad, String.toList_ofList]
  exact forall_mem_padFront (by decide) (forall_mem_toDigits (by decide) (by decide) n)

/-- A hexadecimal number consists of letters and digits. -/
theorem isAlphanum_of_mem_hex {width n : Nat} :
    ∀ c ∈ (Text.hex width n).toList, c.isAlphanum = true := by
  rw [Text.hex, String.toList_ofList]
  exact forall_mem_padFront (by decide) (forall_mem_toDigits (by decide) (by decide) n)

/-- An uppercase hexadecimal number consists of letters and digits. -/
theorem isAlphanum_of_mem_hexUpper {width n : Nat} :
    ∀ c ∈ (Text.hexUpper width n).toList, c.isAlphanum = true := by
  rw [Text.hexUpper, String.toList_ofList, List.forall_mem_map]
  exact forall_mem_padFront (p := fun c => c.toUpper.isAlphanum = true) (by decide)
    (forall_mem_toDigits (by decide) (by decide) n)

/-- A number other than zero does not start with the digit zero. -/
theorem head?_toDigits {b n : Nat} (hb : 1 < b) (hn : 0 < n) :
    (Nat.toDigits b n).head? ≠ some '0' := by
  induction n using Nat.base_induction b hb with
  | single m hm =>
    rw [Nat.toDigits_of_lt_base hm, List.head?_cons]
    simp only [ne_eq, Option.some.injEq, Nat.digitChar_eq_zero]
    omega
  | digit m k hk hm ih =>
    obtain ⟨c, cs, hcs⟩ := List.exists_cons_of_ne_nil (Nat.toDigits_ne_nil (n := m) (b := b))
    rw [← Nat.toDigits_append_toDigits hb hm hk, hcs, List.cons_append, List.head?_cons]
    rw [hcs, List.head?_cons] at ih
    exact ih hm

/-- A number written in decimal, as bytes. -/
theorem ofString_decimal (n : Nat) :
    Bytes.ofString (Text.decimal n) = (Nat.toDigits 10 n).map fun c => UInt8.ofNat c.toNat :=
  Bytes.ofString_of_ascii (isAscii_toDigits n)

/-! ### Decimal numbers in JSON -/

namespace Json

/-- A decimal digit, as a byte, is a digit and has its value. -/
theorem digit_of_digitChar {d : Nat} (h : d < 10) :
    isDigit (UInt8.ofNat (Nat.digitChar d).toNat) = true ∧
      (UInt8.ofNat (Nat.digitChar d).toNat).toNat - 0x30 = d := by
  revert d
  decide

/-- A natural number is written with digits only. -/
theorem isDigit_of_mem_decimal {n : Nat} {b : UInt8} (h : b ∈ Bytes.ofString (Text.decimal n)) :
    isDigit b = true := by
  rw [ofString_decimal] at h
  obtain ⟨c, hc, rfl⟩ := List.mem_map.1 h
  exact forall_mem_toDigits (p := fun c => isDigit (UInt8.ofNat c.toNat) = true) (by decide)
    (fun d hd => (digit_of_digitChar hd).1) n c hc

/-- The number written by the digits of a natural number is that number. -/
theorem digitsValue_decimal (n : Nat) : digitsValue (Bytes.ofString (Text.decimal n)) = n := by
  rw [ofString_decimal]
  induction n using Nat.base_induction 10 (by decide) with
  | single m hm =>
    rw [Nat.toDigits_of_lt_base hm, List.map_singleton, digitsValue, List.foldl_cons, List.foldl_nil,
      (digit_of_digitChar hm).2]
    omega
  | digit m k hk hm ih =>
    rw [digitsValue] at ih
    rw [← Nat.toDigits_append_toDigits (by decide) hm hk, Nat.toDigits_of_lt_base hk,
      List.map_append, List.map_singleton, digitsValue, List.foldl_append, ih, List.foldl_cons,
      List.foldl_nil, (digit_of_digitChar hk).2]
    omega

/-- A natural number has at least one digit. -/
theorem decimal_ne_nil (n : Nat) : Bytes.ofString (Text.decimal n) ≠ [] := by
  rw [ofString_decimal, ne_eq, List.map_eq_nil_iff]
  exact Nat.toDigits_ne_nil

/-- Only zero is written with a zero in front. -/
theorem decimal_of_head_zero {n : Nat} {rest : Bytes}
    (h : Bytes.ofString (Text.decimal n) = 0x30 :: rest) : rest = [] := by
  rw [ofString_decimal] at h
  rcases Nat.eq_zero_or_pos n with rfl | hn
  · rw [Nat.toDigits_zero, List.map_singleton] at h
    exact (List.cons.inj h).2.symm
  · obtain ⟨c, cs, hcs⟩ := List.exists_cons_of_ne_nil (Nat.toDigits_ne_nil (n := n) (b := 10))
    -- The first byte is that of the first digit, so the first digit is a zero.
    have hc : c.toNat < 0x80 := isAscii_toDigits n c (by rw [hcs]; exact List.mem_cons_self)
    have hzero : c = '0' := by
      rw [hcs, List.map_cons, List.cons.injEq] at h
      have hnat := congrArg UInt8.toNat h.1
      rw [UInt8.toNat_ofNat', Nat.mod_eq_of_lt (by omega)] at hnat
      exact Char.toNat_inj.1 hnat
    exact absurd (by rw [hcs, hzero]; rfl) (head?_toDigits (b := 10) (by decide) hn)

end Json

end FlashImage
