import FlashImage.GapFile
import FlashImage.Proofs.Text.Digits
import FlashImage.Proofs.Text.Lines
import Mathlib.Algebra.Group.Nat.Defs
import Mathlib.Data.List.TakeDrop

/-!
# The description of a gap is read back

A description is written as two lines, and what is read from it is the size and the byte it was written
for (`GapFile.read_write`). Digits of every base in use stand for the number they were made from, with
any number of zeros in front and in either case; that also tells numbers in file names apart.
-/

namespace FlashImage.GapFile

/-! ### Numbers -/

/-- Digits are read one after the other. -/
theorem readDigits_append (base value : Nat) (cs ds : List Char) :
    readDigits base value (cs ++ ds)
      = (readDigits base value cs).bind fun n => readDigits base n ds := by
  induction cs generalizing value with
  | nil => rfl
  | cons c cs ih =>
    rw [List.cons_append, readDigits, readDigits]
    cases digit? base c with
    | none => rfl
    | some d => exact ih (value * base + d)

/-- **The digits of a number stand for it**, in whichever way each digit is written. -/
theorem readDigits_toDigits {base : Nat} (hbase : 1 < base) {written : Char → Char}
    (hwritten : ∀ d < base, digit? base (written (Nat.digitChar d)) = some d) (n : Nat) :
    readDigits base 0 ((Nat.toDigits base n).map written) = some n := by
  have hdigit (value : Nat) {d : Nat} (hd : d < base) :
      readDigits base value [written (Nat.digitChar d)] = some (value * base + d) := by
    rw [readDigits, hwritten d hd]
    rfl
  induction n using Nat.base_induction base hbase with
  | single m hm =>
    rw [Nat.toDigits_of_lt_base hm, List.map_singleton, hdigit 0 hm, Nat.zero_mul, Nat.zero_add]
  | digit m k hk hm ih =>
    rw [← Nat.toDigits_append_toDigits hbase hm hk, List.map_append, readDigits_append, ih,
      Nat.toDigits_of_lt_base hk, List.map_singleton, Option.bind_some, hdigit m hk, Nat.mul_comm]

/-- Zeros in front of a number do not count. -/
theorem readDigits_zeros {base : Nat} (hbase : 1 < base) (count : Nat) (cs : List Char) :
    readDigits base 0 (List.replicate count '0' ++ cs) = readDigits base 0 cs := by
  have hzero : digit? base '0' = some 0 := if_pos (Nat.lt_trans Nat.zero_lt_one hbase)
  induction count with
  | zero => rfl
  | succ count ih =>
    rw [List.replicate_succ, List.cons_append, readDigits, hzero]
    show readDigits base (0 * base + 0) _ = _
    rw [Nat.zero_mul, ih]

/-- The digits of a decimal number stand for it. -/
theorem readDigits_decimal (n : Nat) : readDigits 10 0 (Text.decimal n).toList = some n := by
  have hread : readDigits 10 0 ((Nat.toDigits 10 n).map id) = some n :=
    readDigits_toDigits (by decide) (by decide) n
  rw [Text.decimal, String.toList_ofList]
  rwa [List.map_id] at hread

/-- The digits of a padded decimal number stand for it. -/
theorem readDigits_decimalPad (width n : Nat) :
    readDigits 10 0 (Text.decimalPad width n).toList = some n := by
  rw [Text.decimalPad, String.toList_ofList, Text.padFront, readDigits_zeros (by decide)]
  have hread := readDigits_decimal n
  rwa [Text.decimal, String.toList_ofList] at hread

/-- The digits of an uppercase hexadecimal number stand for it. -/
theorem readDigits_hexUpper (width n : Nat) :
    readDigits 16 0 (Text.hexUpper width n).toList = some n := by
  have hzero : Char.toUpper '0' = '0' := by decide
  rw [Text.hexUpper, String.toList_ofList, Text.padFront, List.map_append, List.map_replicate, hzero,
    readDigits_zeros (by decide)]
  exact readDigits_toDigits (by decide) (by decide) n

/-- A number below a bound is read from its digits. -/
theorem number?_eq_some {base bound n : Nat} {cs : List Char} (hread : readDigits base 0 cs = some n)
    (hbound : n < bound) (hcs : cs ≠ []) (hsign : ∀ rest, cs ≠ '+' :: rest) :
    number? base bound cs = some n := by
  rw [number?, if_neg (by simpa using hcs), hread, Option.bind_some, if_pos hbound]
  exact hsign

/-! ### Lines -/

/-- A line without blanks ends at its line feed. -/
theorem linesFrom_line {line : List Char} (h : ∀ c ∈ line, Text.isBlank c = false)
    (rest : List Char) :
    Text.linesFrom [] (line ++ '\n' :: rest) = line :: Text.linesFrom [] rest := by
  have hline (done cs : List Char) (hcs : ∀ c ∈ cs, Text.isBlank c = false) :
      Text.linesFrom done (cs ++ '\n' :: rest)
        = (Text.dropReturn (cs.reverse ++ done)).reverse :: Text.linesFrom [] rest := by
    induction cs generalizing done with
    | nil => rfl
    | cons c cs ih =>
      obtain ⟨hc, hcs⟩ := List.forall_mem_cons.1 hcs
      -- A line feed is a blank, so the line goes on.
      have hfeed : c ≠ '\n' := by
        rintro rfl
        cases hc
      rw [List.cons_append, Text.linesFrom, ih _ hcs, List.reverse_cons, List.append_assoc,
        List.singleton_append]
      exact hfeed
  -- Nor does the line end with a carriage return, which would be dropped.
  have hreturn : Text.dropReturn line.reverse = line.reverse := by
    unfold Text.dropReturn
    split
    next done heq =>
      have hmem : '\r' ∈ line := List.mem_reverse.1 (heq ▸ List.mem_cons_self)
      exact absurd (h _ hmem) (by decide)
    next => rfl
  rw [hline [] line h, List.append_nil, hreturn, List.reverse_reverse]

/-- A line is taken apart at its first equals sign. -/
theorem splitLine?_append {left : List Char} (hequals : '=' ∉ left) (right : List Char) :
    splitLine? (left ++ '=' :: right) = some (Text.trimChars left, Text.trimChars right) := by
  have hall : ∀ c ∈ left, decide (c ≠ '=') = true := by
    rintro c hc
    exact decide_eq_true fun heq => hequals (heq ▸ hc)
  have hspan : (left ++ '=' :: right).span (· ≠ '=') = (left, '=' :: right) := by
    rw [List.span_eq_takeWhile_dropWhile, List.takeWhile_append_of_pos hall,
      List.dropWhile_append_of_pos hall, List.takeWhile_cons_of_neg (by decide),
      List.dropWhile_cons_of_neg (by decide), List.append_nil]
  rw [splitLine?, hspan]
  rfl

/-- A key and a value without blanks are taken apart at the equals sign between them. -/
theorem splitLine?_pair {key value : List Char} (hkey : ∀ c ∈ key, Text.isBlank c = false)
    (hequals : '=' ∉ key) (hvalue : ∀ c ∈ value, Text.isBlank c = false) :
    splitLine? (key ++ '=' :: value) = some (key, value) := by
  rw [splitLine?_append hequals, Text.trimChars_of_not_blank hkey, Text.trimChars_of_not_blank hvalue]

/-! ### Whole descriptions -/

/-- Letters and digits are ASCII, and stand behind all blanks. -/
theorem bounds_of_isAlphanum {c : Char} (h : c.isAlphanum = true) :
    0x30 ≤ c.toNat ∧ c.toNat < 0x80 := by
  -- The bounds of the three classes, as numbers.
  have hends : 'A'.val.toNat = 0x41 ∧ 'Z'.val.toNat = 0x5a ∧ 'a'.val.toNat = 0x61
      ∧ 'z'.val.toNat = 0x7a ∧ '0'.val.toNat = 0x30 ∧ '9'.val.toNat = 0x39 := by decide
  have hnat : c.val.toNat = c.toNat := rfl
  have hclasses : c.isAlphanum = (decide ('A'.val ≤ c.val ∧ c.val ≤ 'Z'.val)
      || ('a'.val ≤ c.val && c.val ≤ 'z'.val) || ('0'.val ≤ c.val && c.val ≤ '9'.val)) := rfl
  simp only [hclasses, Bool.or_eq_true, Bool.and_eq_true, decide_eq_true_eq, UInt32.le_iff_toNat_le,
    hnat] at h
  omega

/-- Letters and digits are no blanks. -/
theorem not_blank_of_isAlphanum {c : Char} (h : c.isAlphanum = true) : Text.isBlank c = false := by
  have hbounds := bounds_of_isAlphanum h
  simp only [Text.isBlank, Bool.or_eq_false_iff, Bool.and_eq_false_iff, decide_eq_false_iff_not]
  omega

/-- A description, line by line. -/
theorem toList_write (size : Nat) (fill : UInt8) :
    (write size fill).toList
      = ("size".toList ++ '=' :: (Text.decimal size).toList) ++ '\n' ::
        (("fill".toList ++ '=' :: '0' :: 'x' :: (Text.hexUpper 2 fill.toNat).toList) ++ '\n' :: []) := by
  simp [write, toString]

/-- The size of a description, as it is written, has no blanks. -/
theorem not_blank_size (size : Nat) : ∀ c ∈ (Text.decimal size).toList, Text.isBlank c = false :=
  fun c hc => not_blank_of_isAlphanum (isAlphanum_of_mem_decimal c hc)

/-- The byte of a description, as it is written, has no blanks. -/
theorem not_blank_fill (fill : UInt8) :
    ∀ c ∈ '0' :: 'x' :: (Text.hexUpper 2 fill.toNat).toList, Text.isBlank c = false := by
  rw [List.forall_mem_cons, List.forall_mem_cons]
  exact ⟨by decide, by decide, fun c hc => not_blank_of_isAlphanum (isAlphanum_of_mem_hexUpper c hc)⟩

/-- A description consists of two lines. -/
theorem lines_write (size : Nat) (fill : UInt8) :
    lines (write size fill)
      = ["size".toList ++ '=' :: (Text.decimal size).toList,
        "fill".toList ++ '=' :: '0' :: 'x' :: (Text.hexUpper 2 fill.toNat).toList] := by
  have hsize : ∀ c ∈ "size".toList ++ '=' :: (Text.decimal size).toList, Text.isBlank c = false :=
    List.forall_mem_append.2
      ⟨by simp [Text.isBlank], List.forall_mem_cons.2 ⟨by decide, not_blank_size size⟩⟩
  have hfill : ∀ c ∈ "fill".toList ++ '=' :: '0' :: 'x' :: (Text.hexUpper 2 fill.toNat).toList,
      Text.isBlank c = false :=
    List.forall_mem_append.2
      ⟨by simp [Text.isBlank], List.forall_mem_cons.2 ⟨by decide, not_blank_fill fill⟩⟩
  rw [lines, toList_write, linesFrom_line hsize, linesFrom_line hfill, Text.linesFrom,
    List.isEmpty_nil, if_pos rfl, List.map_cons, List.map_cons, List.map_nil,
    Text.trimChars_of_not_blank hsize, Text.trimChars_of_not_blank hfill]
  rfl

/-- The size of a description is read back. -/
theorem size?_decimal {size : Nat} (hsize : size < 2 ^ 64) :
    size? (Text.decimal size).toList = some size := by
  refine number?_eq_some (readDigits_decimal size) hsize ?_ ?_
  · rw [Text.decimal, String.toList_ofList]
    exact Nat.toDigits_ne_nil
  · intro rest heq
    -- The reader drops a plus sign in front of the digits, and there is none.
    have hsign := isAlphanum_of_mem_decimal (n := size) '+' (heq ▸ List.mem_cons_self)
    cases hsign

/-- The byte of a description is read back. -/
theorem fill?_hexUpper (fill : UInt8) :
    fill? ('0' :: 'x' :: (Text.hexUpper 2 fill.toNat).toList) = some fill := by
  have hnumber : number? 16 UInt8.size (Text.hexUpper 2 fill.toNat).toList = some fill.toNat := by
    refine number?_eq_some (readDigits_hexUpper 2 fill.toNat) fill.toNat_lt ?_ ?_
    · rw [Text.hexUpper, String.toList_ofList, ne_eq, List.map_eq_nil_iff, Text.padFront,
        List.append_eq_nil_iff]
      exact fun h => Nat.toDigits_ne_nil h.2
    · intro rest heq
      have hsign : Char.isAlphanum '+' = true := isAlphanum_of_mem_hexUpper '+' (heq ▸ List.mem_cons_self)
      cases hsign
  rw [fill?]
  simp only [hnumber, Option.map_some, UInt8.ofNat_toNat]

/-- A description comes back from its bytes. -/
theorem toStringLossy_write (size : Nat) (fill : UInt8) :
    (Bytes.ofString (write size fill)).toStringLossy = write size fill := by
  have halpha {cs : List Char} (h : ∀ c ∈ cs, c.isAlphanum = true) : IsAscii cs :=
    fun c hc => (bounds_of_isAlphanum (h c hc)).2
  have hsize : IsAscii ("size".toList ++ '=' :: (Text.decimal size).toList) :=
    .append (by simp [IsAscii]) (.cons (by decide) (halpha isAlphanum_of_mem_decimal))
  have hfill : IsAscii ("fill".toList ++ '=' :: '0' :: 'x' :: (Text.hexUpper 2 fill.toNat).toList) :=
    .append (by simp [IsAscii]) (.cons (by decide) (.cons (by decide) (.cons (by decide)
      (halpha isAlphanum_of_mem_hexUpper))))
  have hall : IsAscii (write size fill).toList := by
    rw [toList_write]
    exact hsize.append (.cons (by decide) (hfill.append (.cons (by decide) .nil)))
  have hback := Bytes.toStringLossy_ofString hall
  rwa [String.ofList_toList] at hback

/-- **A description is read back.** -/
theorem read_write {size : Nat} (hsize : size < 2 ^ 64) (fill : UInt8) :
    read (write size fill) = .ok (size, fill) := by
  have hsizeLine : splitLine? ("size".toList ++ '=' :: (Text.decimal size).toList)
      = some ("size".toList, (Text.decimal size).toList) :=
    splitLine?_pair (by simp [Text.isBlank]) (by simp) (not_blank_size size)
  have hfillLine : splitLine? ("fill".toList ++ '=' :: '0' :: 'x' :: (Text.hexUpper 2 fill.toNat).toList)
      = some ("fill".toList, '0' :: 'x' :: (Text.hexUpper 2 fill.toNat).toList) :=
    splitLine?_pair (by simp [Text.isBlank]) (by simp) (not_blank_fill fill)
  have hsizeOf (a b : List Char) :
      valueOf? "size" [("size".toList, a), ("fill".toList, b)] = some a := rfl
  have hfillOf (a b : List Char) :
      valueOf? "fill" [("size".toList, a), ("fill".toList, b)] = some b := rfl
  rw [read, lines_write]
  -- No line is refused, so the two pairs are looked up by their keys.
  simp only [List.find?_cons, List.find?_nil, hsizeLine, hfillLine, Option.isNone_some,
    List.filterMap_cons, List.filterMap_nil]
  rw [hsizeOf, hfillOf, Option.bind_some, Option.bind_some, size?_decimal hsize, fill?_hexUpper]

end FlashImage.GapFile
