import FlashImage.Proofs.Json.Values
import FlashImage.Text.Hex

/-!
# Hexadecimal digits are read back

Every byte string is read back from its digits, so the JSON form of an opaque area loses nothing.
-/

namespace FlashImage.Hex

/-- Each of the sixteen digits has its own value. -/
theorem value?_digit : ∀ n < 16, value? (digit n) = some n := by decide

/-- A digit stands in front of `g`, and its value is below sixteen. -/
theorem bounds_of_value? {c : Char} {n : Nat} (h : value? c = some n) : c.toNat < 103 ∧ n < 16 := by
  have hends : '0'.toNat = 48 ∧ '9'.toNat = 57 ∧ 'a'.toNat = 97 ∧ 'f'.toNat = 102
      ∧ 'A'.toNat = 65 ∧ 'F'.toNat = 70 := by decide
  have hle (a b : Char) : a ≤ b ↔ a.toNat ≤ b.toNat := Iff.rfl
  simp only [value?, Bool.and_eq_true, decide_eq_true_eq, hle, hends] at h
  -- The three ranges of digits, and what is in none of them.
  split at h
  · have hvalue := Option.some.inj h
    omega
  split at h
  · have hvalue := Option.some.inj h
    omega
  split at h
  · have hvalue := Option.some.inj h
    omega
  · cases h

/-- **A digit has a value** if it is one of the sixteen, in either case. -/
theorem value?_eq_some_iff {c : Char} {n : Nat} :
    value? c = some n ↔ n < 16 ∧ (c = Nat.digitChar n ∨ c = (Nat.digitChar n).toUpper) := by
  have htable : ∀ k < 103, ∀ n < 16, value? (Char.ofNat k) = some n ↔
      (Char.ofNat k = Nat.digitChar n ∨ Char.ofNat k = (Nat.digitChar n).toUpper) := by
    decide +kernel
  have hrow {n : Nat} (hc : c.toNat < 103) (hn : n < 16) :
      value? c = some n ↔ (c = Nat.digitChar n ∨ c = (Nat.digitChar n).toUpper) := by
    have hrow := htable c.toNat hc n hn
    rwa [Char.ofNat_toNat] at hrow
  -- Digits are in the table, whichever side they come from.
  constructor
  · intro h
    obtain ⟨hc, hn⟩ := bounds_of_value? h
    exact ⟨hn, (hrow hc hn).1 h⟩
  · rintro ⟨hn, h⟩
    have hdigits : ∀ n < 16, (Nat.digitChar n).toNat < 103 ∧ (Nat.digitChar n).toUpper.toNat < 103 := by
      decide
    have hc : c.toNat < 103 := by
      rcases h with rfl | rfl
      · exact (hdigits n hn).1
      · exact (hdigits n hn).2
    exact (hrow hc hn).2 h
/-- The digits of a byte string, behind bytes read before. -/
theorem readDigits_digits (done bs : Bytes) :
    readDigits done (digits bs) = some (done.reverse ++ bs) := by
  induction bs generalizing done with
  | nil => rw [List.append_nil]; rfl
  | cons b bs ih =>
    have hb := b.toNat_lt
    -- The two digits of a byte are its quotient and its remainder by sixteen.
    have hbyte : UInt8.ofNat (b.toNat / 16 * 16 + b.toNat % 16) = b := by
      rw [Nat.div_add_mod', UInt8.ofNat_toNat]
    show readDigits done (digit (b.toNat / 16) :: digit (b.toNat % 16) :: digits bs) = _
    rw [readDigits, value?_digit _ (by omega), value?_digit _ (Nat.mod_lt _ (by decide))]
    show readDigits (_ :: done) (digits bs) = _
    rw [hbyte, ih, List.reverse_cons, List.append_assoc, List.singleton_append]

/-- **Bytes are read back from their text.** -/
theorem decode?_encode (bs : Bytes) : decode? (encode bs) = some bs := by
  rw [decode?, encode, String.toList_ofList, readDigits_digits]
  rfl

@[simp] theorem ofJson?_toJson (bs : Bytes) : ofJson? (toJson bs) = some bs := by
  rw [ofJson?, toJson, Json.asText?_text, Option.bind_some, decode?_encode]

end FlashImage.Hex
