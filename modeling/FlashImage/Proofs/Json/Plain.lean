import FlashImage.Json.Decode
import FlashImage.Proofs.Text.Digits
import Mathlib.Algebra.Group.Nat.Defs
import Mathlib.Data.List.TakeDrop
import Mathlib.Data.List.TakeWhile

/-!
# Values that can be set aside

A piece of a layout is set aside before it is read, which takes its texts to be text and its numbers to
be in the range of a double. Written texts always are, and numbers of 64 bits are far below the limit
(`isFinite_decimal`).
-/

namespace FlashImage.Json

/-! ### Numbers of 64 bits -/

/-- Rounding to a double makes a number at most twice as large. -/
theorem nearestDouble_le (n : Nat) (hn : n ≠ 0) : nearestDouble n ≤ 2 * n := by
  -- Rounding adds at most one unit in the last place, which is no larger than the number.
  have hunit : 1 <<< (n.log2 + 1 - doublePrecision) ≤ n :=
    calc 1 <<< (n.log2 + 1 - doublePrecision)
      _ = 2 ^ (n.log2 + 1 - doublePrecision) := Nat.one_shiftLeft _
      _ ≤ 2 ^ n.log2 := Nat.pow_le_pow_right (by decide) (by unfold doublePrecision; omega)
      _ ≤ n := Nat.log2_self_le hn
  have hbelow := Nat.div_mul_le_self n (1 <<< (n.log2 + 1 - doublePrecision))
  rw [nearestDouble]
  split
  · rw [Nat.add_mul, Nat.one_mul]
    omega
  · omega

/-- Digits are all appended as long as the number they make up has 64 bits. -/
theorem appendDigits_eq {ds : Bytes} {n : Nat}
    (h : ds.foldl (fun n d => n * 10 + (d.toNat - 0x30)) n < 2 ^ 64) :
    appendDigits n ds = (ds.foldl (fun n d => n * 10 + (d.toNat - 0x30)) n, []) := by
  -- More digits never make a number smaller, so none of the numbers on the way is too large either.
  have hgrow (ds : Bytes) (m : Nat) : m ≤ ds.foldl (fun n d => n * 10 + (d.toNat - 0x30)) m := by
    induction ds generalizing m with
    | nil => exact Nat.le_refl m
    | cons d ds ih =>
      have hle := ih (m * 10 + (d.toNat - 0x30))
      rw [List.foldl_cons]
      omega
  induction ds generalizing n with
  | nil => rfl
  | cons d ds ih =>
    rw [List.foldl_cons] at h ⊢
    have hword : n * 10 + (d.toNat - 0x30) < UInt64.size := Nat.lt_of_le_of_lt (hgrow ds _) h
    rw [appendDigits, if_pos hword, ih h]

/-- A natural number of 64 bits is an integer without a power of ten. -/
theorem scientific_decimal {n : Nat} (hn : n < 2 ^ 64) :
    scientific (Bytes.ofString (Text.decimal n)) = (n, 0) := by
  have hdigits : ∀ b ∈ Bytes.ofString (Text.decimal n), isDigit b = true :=
    fun b hb => isDigit_of_mem_decimal hb
  have hvalue := digitsValue_decimal n
  generalize Bytes.ofString (Text.decimal n) = ds at hdigits hvalue
  have hne {c : UInt8} (hc : isDigit c = false) : ∀ b ∈ ds, b ≠ c := by
    rintro b hb rfl
    rw [hdigits b hb] at hc
    cases hc
  -- There are only digits: no sign, no exponent, no point.
  have hsign : ds.dropWhile (· = 0x2d) = ds := by
    cases ds with
    | nil => rfl
    | cons b bs => exact List.dropWhile_cons_of_neg (by simpa using hne rfl b List.mem_cons_self)
  have hspan {p : UInt8 → Bool} (hp : ∀ b ∈ ds, p b = true) : ds.span p = (ds, []) := by
    rw [List.span_eq_takeWhile_dropWhile, List.takeWhile_eq_self_iff.2 hp,
      List.dropWhile_eq_nil_iff.2 hp]
  have hexponent : ds.span (fun b => b ≠ 0x65 && b ≠ 0x45) = (ds, []) :=
    hspan fun b hb => by simp [hne (c := 0x65) rfl b hb, hne (c := 0x45) rfl b hb]
  have hpoint : ds.span (· ≠ 0x2e) = (ds, []) :=
    hspan fun b hb => by simp [hne (c := 0x2e) rfl b hb]
  have hall : appendDigits 0 ds = (n, []) := by
    rw [← hvalue, digitsValue]
    exact appendDigits_eq (by rw [← digitsValue, hvalue]; exact hn)
  unfold scientific
  simp only [hsign, hexponent, hpoint, hall]
  rfl

/-- **A natural number of 64 bits is in the range of a double.** -/
theorem isFinite_decimal {n : Nat} (hn : n < 2 ^ 64) :
    isFinite (Bytes.ofString (Text.decimal n)) = true := by
  unfold isFinite
  rw [scientific_decimal hn]
  by_cases hzero : n = 0
  · simp [hzero]
  · -- Without an exponent, the power of ten is one.
    have hone : nearestDouble (Nat.pow 10 (0 : Int).toNat) = 1 := by decide
    have hlimit : 2 ^ 65 ≤ doubleLimit := by decide +kernel
    have hle := nearestDouble_le n hzero
    simp only [hone, Nat.mul_one, hzero, decide_false, Bool.false_or]
    rw [if_neg (by decide), decide_eq_true (Nat.lt_of_lt_of_le (by omega) hlimit)]
    decide

/-! ### Plain values -/

@[simp] theorem isPlain_text (depth : Nat) (s : String) : (text s).isPlain depth = true := by
  rw [text, isPlain, Bytes.toString?_ofString, Option.isSome_some]

theorem isPlain_nat (depth : Nat) {n : Nat} (hn : n < 2 ^ 64) : (nat n).isPlain depth = true :=
  isFinite_decimal hn

/-- A record can be set aside if the values of its members can. -/
theorem isPlain_record {depth : Nat} {members : List (String × Json)}
    (h : ∀ m ∈ members, m.2.isPlain depth = true) : (record members).isPlain (depth + 1) = true := by
  show areMembersPlain depth (members.map fun m => (Bytes.ofString m.1, m.2)) = true
  induction members with
  | nil => rfl
  | cons m members ih =>
    obtain ⟨hm, hmembers⟩ := List.forall_mem_cons.1 h
    rw [List.map_cons, areMembersPlain, Bytes.toString?_ofString, Option.isSome_some, hm,
      ih hmembers]
    rfl

end FlashImage.Json
