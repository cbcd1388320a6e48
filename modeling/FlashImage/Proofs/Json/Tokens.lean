import FlashImage.Json.Printer
import FlashImage.Json.Reader
import FlashImage.Proofs.Text.Digits
import Mathlib.Data.List.TakeDrop

/-!
# JSON tokens are read as they were written

A token is followed by more text, and the reader has to stop where the token ends. A string literal
says so itself, whatever its contents are (`readString_quoted`). A number does not: it ends where no
further character of a number follows, and in written JSON that is a comma, a new line or the end of
the text (`AfterValue`, `readNumber?_decimal`).
-/

namespace FlashImage.Json

/-! ### Strings -/

/-- The four digits of a numbered escape for a control character. -/
theorem hex4?_control :
    ∀ n < 0x20, hex4? 0x30 0x30 (hexDigit (n / 16)) (hexDigit (n % 16)) = some n := by
  decide

/-- A byte is written with at least one byte. -/
theorem length_escapeByte_pos (b : UInt8) : 0 < (escapeByte b).length := by
  unfold escapeByte
  repeat' split
  all_goals exact Nat.succ_pos _

/-- A string literal is longer than its contents. -/
theorem length_lt_length_quoted (contents : Bytes) : contents.length + 1 < (quoted contents).length := by
  have hescaped : contents.length ≤ (contents.flatMap escapeByte).length := by
    induction contents with
    | nil => exact Nat.le_refl _
    | cons b bs ih =>
      have hb := length_escapeByte_pos b
      rw [List.flatMap_cons, List.length_append, List.length_cons]
      omega
  rw [quoted, List.length_cons, List.length_append, List.length_singleton]
  omega

/-- A numbered escape is read as what it stands for. -/
theorem readString_numberedEscape (fuel : Nat) (done rest : Bytes) :
    readString (fuel + 1) done (0x5c :: 0x75 :: rest)
      = (readNumberedEscape? rest).bind fun r => readString fuel (r.1.reverse ++ done) r.2 := by
  cases h : readNumberedEscape? rest with
  | none => simp [readString, h]
  | some r => simp [readString, h]

/-- **One byte of a string literal.** Whichever way a byte is written, one step of the reader takes it
in. -/
theorem readString_escapeByte (fuel : Nat) (done : Bytes) (b : UInt8) (rest : Bytes) :
    readString (fuel + 1) done (escapeByte b ++ rest) = readString fuel (b :: done) rest := by
  unfold escapeByte
  -- Seven bytes have escapes of their own, which are read by computation.
  split
  · next h => subst h; rfl
  split
  · next h => subst h; rfl
  split
  · next h => subst h; rfl
  split
  · next h => subst h; rfl
  split
  · next h => subst h; rfl
  split
  · next h => subst h; rfl
  split
  · next h => subst h; rfl
  split
  · next h =>
    -- A numbered escape, read back as a code point of a single byte.
    have hlt : b.toNat < 0x20 := h
    have hunit := hex4?_control b.toNat hlt
    have hhigh : isHighSurrogate b.toNat = false := by
      rw [isHighSurrogate, Bool.and_eq_false_iff, decide_eq_false_iff_not]
      omega
    have hpoint : codePointBytes b.toNat = [b] := by
      rw [codePointBytes, if_pos (by omega), UInt8.ofNat_toNat]
    have hread : readNumberedEscape?
        (0x30 :: 0x30 :: hexDigit (b.toNat / 16) :: hexDigit (b.toNat % 16) :: rest)
        = some ([b], rest) := by
      simp only [readNumberedEscape?, hunit, bind, Option.bind, hhigh, hpoint]
      rfl
    simp only [List.cons_append, List.nil_append]
    rw [readString_numberedEscape, hread]
    rfl
  · next hquote hslash _ _ _ _ _ hcontrol =>
    -- Any other byte stands for itself, as it neither closes the string nor starts an escape.
    rw [List.singleton_append, readString.eq_def]
    simp [hquote, hslash, hcontrol]

/-- **The rest of a string literal** is read back, behind what was read before. -/
theorem readString_escaped {fuel : Nat} (done contents rest : Bytes)
    (h : contents.length < fuel) :
    readString fuel done (contents.flatMap escapeByte ++ 0x22 :: rest)
      = some (done.reverse ++ contents, rest) := by
  induction contents generalizing fuel done with
  | nil =>
    obtain ⟨fuel, rfl⟩ := Nat.exists_eq_succ_of_ne_zero (Nat.ne_zero_of_lt h)
    rw [List.flatMap_nil, List.nil_append, List.append_nil, readString.eq_def]
    simp
  | cons b contents ih =>
    obtain ⟨fuel, rfl⟩ := Nat.exists_eq_succ_of_ne_zero (Nat.ne_zero_of_lt h)
    rw [List.length_cons] at h
    rw [List.flatMap_cons, List.append_assoc, readString_escapeByte, ih _ (by omega),
      List.reverse_cons, List.append_assoc, List.singleton_append]

/-- **A string literal is read back**, whatever bytes it stands for. -/
theorem readString_quoted {fuel : Nat} (contents rest : Bytes) (h : contents.length < fuel) :
    readString fuel [] ((contents.flatMap escapeByte ++ [0x22]) ++ rest) = some (contents, rest) := by
  rw [List.append_assoc, List.singleton_append, readString_escaped [] contents rest h]
  rfl

/-! ### Numbers -/

/-- **What can follow a value** in written JSON: a comma, a new line, or nothing. -/
def AfterValue (rest : Bytes) : Prop := ∀ b ∈ rest.head?, b = 0x2c ∨ b = 0x0a

theorem afterValue_nil : AfterValue [] := by
  intro b hb
  cases hb

theorem afterValue_comma (rest : Bytes) : AfterValue (0x2c :: rest) := by
  intro b hb
  exact Or.inl (Option.some.inj hb).symm

theorem afterValue_newLine (depth : Nat) (rest : Bytes) : AfterValue (newLine depth ++ rest) := by
  intro b hb
  exact Or.inr (Option.some.inj hb).symm

/-- No digit follows a value. -/
theorem AfterValue.span_isDigit {ds rest : Bytes} (hds : ∀ b ∈ ds, isDigit b = true)
    (hrest : AfterValue rest) : (ds ++ rest).span isDigit = (ds, rest) := by
  rw [List.span_eq_takeWhile_dropWhile, List.takeWhile_append_of_pos hds,
    List.dropWhile_append_of_pos hds]
  cases rest with
  | nil => rw [List.takeWhile_nil, List.dropWhile_nil, List.append_nil]
  | cons b rest =>
    have hb : isDigit b = false := by
      rcases hrest b rfl with rfl | rfl <;> rfl
    rw [List.takeWhile_cons_of_neg (by simp [hb]), List.dropWhile_cons_of_neg (by simp [hb]),
      List.append_nil]

/-- What follows a value is no fraction. -/
theorem AfterValue.fractionPart? {rest : Bytes} (hrest : AfterValue rest) :
    fractionPart? rest = some ([], rest) := by
  cases rest with
  | nil => rfl
  | cons b rest => rcases hrest b rfl with rfl | rfl <;> rfl

/-- What follows a value is no exponent. -/
theorem AfterValue.exponentPart? {rest : Bytes} (hrest : AfterValue rest) :
    exponentPart? rest = some ([], rest) := by
  cases rest with
  | nil => rfl
  | cons b rest => rcases hrest b rfl with rfl | rfl <;> cases rest <;> rfl

/-- The digits of a natural number are an integer part. -/
theorem integerPart?_decimal (n : Nat) {rest : Bytes} (hrest : AfterValue rest) :
    integerPart? (Bytes.ofString (Text.decimal n) ++ rest)
      = some (Bytes.ofString (Text.decimal n), rest) := by
  have hspan := hrest.span_isDigit fun b hb => isDigit_of_mem_decimal (n := n) hb
  obtain ⟨d, ds, hds⟩ := List.exists_cons_of_ne_nil (decimal_ne_nil n)
  rw [hds] at hspan ⊢
  by_cases hd : d = 0x30
  · -- A zero has to stand alone, and in a natural number it does.
    subst hd
    rw [decimal_of_head_zero hds]
    rfl
  · rw [List.cons_append] at hspan ⊢
    rw [integerPart?, digits?, hspan]
    intro rest' heq
    exact hd (List.cons.inj heq).1

/-- **A natural number is read back**, if nothing follows that could belong to a number. -/
theorem readNumber?_decimal (n : Nat) {rest : Bytes} (hrest : AfterValue rest) :
    readNumber? (Bytes.ofString (Text.decimal n) ++ rest)
      = some (Bytes.ofString (Text.decimal n), rest) := by
  have hmagnitude : magnitude? (Bytes.ofString (Text.decimal n) ++ rest)
      = some (Bytes.ofString (Text.decimal n), rest) := by
    simp only [magnitude?, bind, Option.bind, integerPart?_decimal n hrest, hrest.fractionPart?,
      hrest.exponentPart?, pure, List.append_nil]
  obtain ⟨d, ds, hds⟩ := List.exists_cons_of_ne_nil (decimal_ne_nil n)
  -- The reader looks for a sign first, so the first digit has to be told from one.
  have hd : d ≠ 0x2d := by
    rintro rfl
    have := isDigit_of_mem_decimal (n := n) (b := 0x2d) (by rw [hds]; exact List.mem_cons_self)
    cases this
  rw [hds, List.cons_append] at hmagnitude ⊢
  rw [readNumber?, hmagnitude]
  intro rest' heq
  exact hd (List.cons.inj heq).1

end FlashImage.Json
