import FlashImage.Proofs.Repack.Pieces

/-!
# The grammar of gap descriptions

A description may be edited by hand, so its reader is lenient. What it takes is written down here as a grammar
that does not mention the reader:

* a digit of a base is the character of a number below it, in either case, and digits stand for the number
  that is built up from them (`GapFile.Digits`);
* a number may have a plus sign (`GapFile.Numeral`), and a hexadecimal one a mark in front of that
  (`GapFile.HexNumeral`);
* a row gives a value to a key if these stand on either side of its first equals sign (`GapFile.Gives`), and
  of all rows that give one to a key only the last counts (`GapFile.LastGives`).

`GapFile.Describes` puts them together, and `GapFile.read_eq_ok_iff` says that this is what is read: each part
of the reader has an equivalence with its part of the grammar. The grammar looks at a row as it stands, and
the reader only after the blanks around it are gone; both find the same key and the same value, since blanks
around a row are blanks around one of these (`GapFile.splitLine?_trimChars`).
-/

namespace FlashImage.GapFile

/-! ### Numbers -/

/-- **A digit** of a base, in either case. -/
def IsDigit (base : Nat) (c : Char) (v : Nat) : Prop :=
  v < base ∧ (c = Nat.digitChar v ∨ c = (Nat.digitChar v).toUpper)

/-- **The digits of a number**, the most significant one first. There may be zeros in front. -/
inductive Digits (base : Nat) : List Char → Nat → Prop
  | one {c : Char} {v : Nat} : IsDigit base c v → Digits base [c] v
  | more {cs : List Char} {n : Nat} {c : Char} {v : Nat} :
    Digits base cs n → IsDigit base c v → Digits base (cs ++ [c]) (n * base + v)

/-- **A number** that may have a plus sign. -/
inductive Numeral (base : Nat) : List Char → Nat → Prop
  | plain {cs : List Char} {n : Nat} : Digits base cs n → Numeral base cs n
  | signed {cs : List Char} {n : Nat} : Digits base cs n → Numeral base ('+' :: cs) n

/-- **A hexadecimal number** that may be marked as one, in front of its sign. -/
inductive HexNumeral : List Char → Nat → Prop
  | plain {cs : List Char} {n : Nat} : Numeral 16 cs n → HexNumeral cs n
  | marked {cs : List Char} {n : Nat} : Numeral 16 cs n → HexNumeral ('0' :: 'x' :: cs) n
  | markedUpper {cs : List Char} {n : Nat} : Numeral 16 cs n → HexNumeral ('0' :: 'X' :: cs) n

section

variable {base bound n v : Nat} {c : Char} {cs : List Char}

theorem digit?_eq_some_iff (hbase : base ≤ 16) : digit? base c = some v ↔ IsDigit base c v := by
  have hdigit : digit? base c = (Hex.value? c).bind fun v => if v < base then some v else none := rfl
  rw [hdigit, Option.bind_eq_some_iff]
  constructor
  · rintro ⟨w, hw, hv⟩
    obtain ⟨hlt, rfl⟩ := Option.ite_none_right_eq_some.1 hv |>.imp_right Option.some.inj
    exact ⟨hlt, (Hex.value?_eq_some_iff.1 hw).2⟩
  · rintro ⟨hlt, hc⟩
    exact ⟨v, Hex.value?_eq_some_iff.2 ⟨by omega, hc⟩, if_pos hlt⟩

/-- One more digit behind others. -/
theorem readDigits_concat_eq_some_iff (hbase : base ≤ 16) :
    readDigits base 0 (cs ++ [c]) = some n ↔
      ∃ m v, readDigits base 0 cs = some m ∧ IsDigit base c v ∧ m * base + v = n := by
  rw [readDigits_append, Option.bind_eq_some_iff]
  refine exists_congr fun m => ?_
  rw [readDigits, exists_and_left]
  refine and_congr_right fun _ => ?_
  cases hc : digit? base c with
  | none =>
    simp [← digit?_eq_some_iff hbase, hc]
  | some v =>
    simp [← digit?_eq_some_iff hbase, hc, readDigits]

/-- **Digits are read as the number that they stand for.** -/
theorem readDigits_eq_some_iff (hbase : base ≤ 16) :
    cs ≠ [] ∧ readDigits base 0 cs = some n ↔ Digits base cs n := by
  constructor
  · -- The digits are taken off from the end, as that is how a number is built up.
    rintro ⟨hne, hread⟩
    induction cs using List.reverseRecOn generalizing n with
    | nil => exact absurd rfl hne
    | append_singleton cs c ih =>
      obtain ⟨m, v, hm, hv, rfl⟩ := (readDigits_concat_eq_some_iff hbase).1 hread
      rcases eq_or_ne cs [] with rfl | hcs
      · -- The first digit is read after none, which stand for zero.
        obtain rfl : 0 = m := Option.some.inj hm
        rw [Nat.zero_mul, Nat.zero_add]
        exact .one hv
      · exact .more (ih hcs hm) hv
  · intro h
    induction h with
    | one hv =>
      refine ⟨List.cons_ne_nil _ _, ?_⟩
      show readDigits base 0 ([] ++ [_]) = some _
      rw [readDigits_concat_eq_some_iff hbase]
      exact ⟨0, _, rfl, hv, by rw [Nat.zero_mul, Nat.zero_add]⟩
    | more _ hv ih =>
      refine ⟨by simp, (readDigits_concat_eq_some_iff hbase).2 ⟨_, _, ih.2, hv, rfl⟩⟩

/-- Whatever stands among digits is one. -/
theorem Digits.digit?_ne_none (hbase : base ≤ 16) (h : Digits base cs n) :
    ∀ c ∈ cs, digit? base c ≠ none := by
  have hdigit {c : Char} {v : Nat} (hv : IsDigit base c v) : digit? base c ≠ none := by
    rw [(digit?_eq_some_iff hbase).2 hv]
    exact Option.some_ne_none v
  induction h with
  | one hv => exact List.forall_mem_singleton.2 (hdigit hv)
  | more _ hv ih => exact List.forall_mem_append.2 ⟨ih, List.forall_mem_singleton.2 (hdigit hv)⟩

/-- **A number is read below a bound** if it is one. -/
theorem number?_eq_some_iff (hbase : base ≤ 16) :
    number? base bound cs = some n ↔ Numeral base cs n ∧ n < bound := by
  have hdigits (ds : List Char) :
      (if ds.isEmpty then none
        else (readDigits base 0 ds).bind fun n => if n < bound then some n else none) = some n
        ↔ Digits base ds n ∧ n < bound := by
    rw [← readDigits_eq_some_iff hbase]
    cases ds with
    | nil => simp
    | cons d ds =>
      simp [Option.bind_eq_some_iff]
  unfold number?
  split
  · next rest =>
    rw [hdigits]
    refine and_congr_left fun _ => ⟨.signed, ?_⟩
    rintro (h | h)
    · -- A plus sign is no digit.
      exact absurd rfl (h.digit?_ne_none hbase '+' List.mem_cons_self)
    · exact h
  · next hsign =>
    rw [hdigits]
    refine and_congr_left fun _ => ⟨.plain, ?_⟩
    rintro (h | h)
    · exact h
    · exact absurd rfl (hsign _)

/-- The size that a value stands for. -/
theorem size?_eq_some_iff : size? cs = some n ↔ Numeral 10 cs n ∧ n < 2 ^ 64 :=
  number?_eq_some_iff (by decide)

/-- What marks a hexadecimal number stands in no such number. -/
theorem not_numeral_marked (hc : digit? 16 c = none) : ¬ Numeral 16 ('0' :: c :: cs) n := by
  rintro (h | h)
  exact h.digit?_ne_none (by decide) c (by simp) hc

/-- The byte that a value stands for. -/
theorem fill?_eq_some_iff {fill : UInt8} : fill? cs = some fill ↔ HexNumeral cs fill.toNat := by
  have hbyte (ds : List Char) :
      (number? 16 UInt8.size ds).map UInt8.ofNat = some fill ↔ Numeral 16 ds fill.toNat := by
    rw [Option.map_eq_some_iff]
    constructor
    · rintro ⟨n, hn, rfl⟩
      obtain ⟨hnumeral, hlt⟩ := (number?_eq_some_iff (by decide)).1 hn
      rwa [UInt8.toNat_ofNat', Nat.mod_eq_of_lt hlt]
    · intro h
      exact ⟨fill.toNat, (number?_eq_some_iff (by decide)).2 ⟨h, fill.toNat_lt⟩, UInt8.ofNat_toNat⟩
  unfold fill?
  split
  · rw [hbyte]
    refine ⟨.marked, ?_⟩
    rintro (h | h | h)
    · exact absurd h (not_numeral_marked rfl)
    · exact h
  · rw [hbyte]
    refine ⟨.markedUpper, ?_⟩
    rintro (h | h | h)
    · exact absurd h (not_numeral_marked rfl)
    · exact h
  · next hlower hupper =>
    rw [hbyte]
    refine ⟨.plain, ?_⟩
    rintro (h | h | h)
    · exact h
    · exact absurd rfl (hlower _)
    · exact absurd rfl (hupper _)

end

/-! ### Rows -/

/-- **A row gives a value to a key** if they are what is left without blanks on either side of its first
equals sign. -/
def Gives (row key value : List Char) : Prop :=
  ∃ left right, row = left ++ '=' :: right ∧ '=' ∉ left ∧ Text.Trims left key ∧ Text.Trims right value

/-- **The last row that gives a value to a key** gives it this one. -/
def LastGives (rows : List (List Char)) (key value : List Char) : Prop :=
  ∃ before row after, rows = before ++ row :: after ∧ Gives row key value ∧
    ∀ later ∈ after, ∀ other, ¬ Gives later key other

/-- **What a text describes**: a size of 64 bits and a byte. Rows with other keys do not matter, and neither
do earlier rows with the same key. -/
structure Describes (text : String) (size : Nat) (fill : UInt8) : Prop where
  /-- A row that is not blank is one with a key. -/
  keyed : ∀ row ∈ Text.rows text, Text.Blank row ∨ '=' ∈ row
  size : ∃ value, LastGives (Text.rows text) "size".toList value ∧ Numeral 10 value size ∧ size < 2 ^ 64
  fill : ∃ value, LastGives (Text.rows text) "fill".toList value ∧ HexNumeral value fill.toNat

/-- The lines of a description are its rows without blanks, as far as anything is left of them. -/
theorem lines_eq (text : String) :
    lines text = ((Text.rows text).map Text.trimChars).filter (!·.isEmpty) :=
  Text.filter_map_trimChars_linesFrom [] text.toList

section

variable {row key value : List Char}

theorem splitLine?_eq_none_iff : splitLine? row = none ↔ '=' ∉ row := by
  constructor
  · intro h hmem
    obtain ⟨left, right, rfl, hequals⟩ := List.eq_append_cons_of_mem hmem
    rw [splitLine?_append hequals] at h
    cases h
  · intro h
    have hall : ∀ c ∈ row, decide (c ≠ '=') = true := fun c hc => decide_eq_true fun heq => h (heq ▸ hc)
    have hspan : row.span (· ≠ '=') = (row, []) := by
      rw [List.span_eq_takeWhile_dropWhile, List.takeWhile_eq_self_iff.2 hall,
        List.dropWhile_eq_nil_iff.2 hall]
    rw [splitLine?, hspan]

theorem splitLine?_eq_some_iff : splitLine? row = some (key, value) ↔ Gives row key value := by
  constructor
  · intro h
    have hmem : '=' ∈ row := by
      by_contra hnot
      rw [splitLine?_eq_none_iff.2 hnot] at h
      cases h
    obtain ⟨left, right, rfl, hequals⟩ := List.eq_append_cons_of_mem hmem
    rw [splitLine?_append hequals, Option.some.injEq, Prod.mk.injEq] at h
    exact ⟨left, right, rfl, hequals, Text.trimChars_eq_iff.1 h.1, Text.trimChars_eq_iff.1 h.2⟩
  · rintro ⟨left, right, rfl, hequals, hkey, hvalue⟩
    rw [splitLine?_append hequals, Text.trimChars_eq_iff.2 hkey, Text.trimChars_eq_iff.2 hvalue]

/-- **The blanks around a row** are blanks around its key and its value. -/
theorem splitLine?_trimChars (row : List Char) :
    splitLine? (Text.trimChars row) = splitLine? row := by
  obtain ⟨-, front, back, hfront, hback, hrow⟩ := Text.trims_trimChars row
  have hblank {cs : List Char} (hcs : Text.Blank cs) : '=' ∉ cs := fun h => by cases hcs _ h
  generalize Text.trimChars row = word at hrow
  subst hrow
  by_cases hmem : '=' ∈ word
  · -- The first equals sign of the word is the first one of the row.
    obtain ⟨left, right, rfl, hequals⟩ := List.eq_append_cons_of_mem hmem
    have hleft : '=' ∉ front ++ left := by
      rw [List.mem_append, not_or]
      exact ⟨hblank hfront, hequals⟩
    calc splitLine? (left ++ '=' :: right)
        = some (Text.trimChars left, Text.trimChars right) := splitLine?_append hequals right
      _ = some (Text.trimChars (front ++ left), Text.trimChars (right ++ back)) := by
        rw [Text.trimChars_blank_append hfront, Text.trimChars_append_blank _ hback]
      _ = splitLine? ((front ++ left) ++ '=' :: (right ++ back)) :=
        (splitLine?_append hleft _).symm
      _ = splitLine? (front ++ (left ++ '=' :: right) ++ back) := by simp
  · rw [splitLine?_eq_none_iff.2 hmem, eq_comm, splitLine?_eq_none_iff, List.mem_append, List.mem_append,
      not_or, not_or]
    exact ⟨⟨hblank hfront, hmem⟩, hblank hback⟩

/-- What the lines of a description say is what its rows say. -/
theorem filterMap_splitLine?_lines (text : String) :
    (lines text).filterMap splitLine? = (Text.rows text).filterMap splitLine? := by
  rw [lines_eq, List.filterMap_filter, List.filterMap_map]
  refine List.filterMap_congr fun row _ => ?_
  show (if !(Text.trimChars row).isEmpty then splitLine? (Text.trimChars row) else none) = splitLine? row
  rw [splitLine?_trimChars]
  cases hempty : (Text.trimChars row).isEmpty with
  | true =>
    -- A blank row says nothing.
    rw [← splitLine?_trimChars, List.isEmpty_iff.1 hempty]
    rfl
  | false => rfl

/-- **No line is refused** if every row that is not blank is one with a key. -/
theorem find?_lines_eq_none_iff {text : String} :
    ((lines text).find? fun line => (splitLine? line).isNone) = none ↔
      ∀ row ∈ Text.rows text, Text.Blank row ∨ '=' ∈ row := by
  -- Lines are the rows without their blanks, and blank rows are no lines.
  rw [lines_eq, List.find?_eq_none]
  constructor
  · intro h row hrow
    rw [or_iff_not_imp_left]
    intro hblank
    have hline : Text.trimChars row ∈ ((Text.rows text).map Text.trimChars).filter (!·.isEmpty) := by
      refine List.mem_filter.2 ⟨List.mem_map_of_mem hrow, ?_⟩
      simpa [Text.trimChars_eq_nil_iff] using hblank
    have hsome := h _ hline
    rw [splitLine?_trimChars, Option.isNone_iff_eq_none, splitLine?_eq_none_iff, not_not] at hsome
    exact hsome
  · intro h line hline
    obtain ⟨hmem, hne⟩ := List.mem_filter.1 hline
    obtain ⟨row, hrow, rfl⟩ := List.mem_map.1 hmem
    rw [splitLine?_trimChars, Option.isNone_iff_eq_none, splitLine?_eq_none_iff, not_not]
    refine (h row hrow).resolve_left fun hblank => ?_
    rw [Text.trimChars_eq_nil_iff.2 hblank] at hne
    cases hne

/-- A row is looked at for a key if it gives it a value. -/
theorem any_splitLine?_iff :
    (splitLine? row).any (·.1 = key) = true ↔ ∃ value, Gives row key value := by
  simp only [← splitLine?_eq_some_iff]
  cases splitLine? row with
  | none => simp
  | some pair => simp [Prod.ext_iff]

/-- **The value of a key** is the one that the last row with the key gives it. -/
theorem valueOf?_eq_some_iff {key : String} {rows : List (List Char)} :
    valueOf? key (rows.filterMap splitLine?) = some value ↔ LastGives rows key.toList value := by
  rw [valueOf?, ← List.filterMap_reverse, List.find?_filterMap, Option.map_eq_some_iff]
  constructor
  · -- Rows are looked through from the end, so what was passed over comes after the row that was found.
    rintro ⟨pair, hpair, rfl⟩
    obtain ⟨row, hfind, hrow⟩ := Option.bind_eq_some_iff.1 hpair
    obtain ⟨hkey, after, before, hrows, hlater⟩ := List.find?_eq_some_iff_append.1 hfind
    have hpairKey : pair.1 = key.toList := by
      rw [hrow] at hkey
      exact of_decide_eq_true hkey
    refine ⟨before.reverse, row, after.reverse, ?_, splitLine?_eq_some_iff.1 (hpairKey ▸ hrow), ?_⟩
    · rw [List.reverse_eq_iff.1 hrows]
      simp
    · intro later hmem other hgives
      have hnot := hlater later (List.mem_reverse.1 hmem)
      rw [any_splitLine?_iff.2 ⟨other, hgives⟩] at hnot
      cases hnot
  · rintro ⟨before, row, after, rfl, hgives, hlater⟩
    refine ⟨(key.toList, value),
      Option.bind_eq_some_iff.2 ⟨row, ?_, splitLine?_eq_some_iff.2 hgives⟩, rfl⟩
    refine List.find?_eq_some_iff_append.2
      ⟨any_splitLine?_iff.2 ⟨value, hgives⟩, after.reverse, before.reverse, by simp, ?_⟩
    intro later hmem
    rw [Bool.not_eq_true', Bool.eq_false_iff, ne_eq, any_splitLine?_iff, not_exists]
    exact hlater later (List.mem_reverse.1 hmem)

end

/-! ### Whole descriptions -/

/-- **What is read from a description** is what it is about. -/
theorem read_eq_ok_iff {text : String} {size : Nat} {fill : UInt8} :
    read text = .ok (size, fill) ↔ Describes text size fill := by
  -- The value of a key is taken from the rows, and read by the equivalence for its kind of number.
  have hsize : (valueOf? "size" ((lines text).filterMap splitLine?)).bind size? = some size ↔
      ∃ value, LastGives (Text.rows text) "size".toList value ∧ Numeral 10 value size
        ∧ size < 2 ^ 64 := by
    simp only [Option.bind_eq_some_iff, filterMap_splitLine?_lines, valueOf?_eq_some_iff,
      size?_eq_some_iff]
  have hfill : (valueOf? "fill" ((lines text).filterMap splitLine?)).bind fill? = some fill ↔
      ∃ value, LastGives (Text.rows text) "fill".toList value ∧ HexNumeral value fill.toNat := by
    simp only [Option.bind_eq_some_iff, filterMap_splitLine?_lines, valueOf?_eq_some_iff,
      fill?_eq_some_iff]
  constructor
  · intro h
    rw [read] at h
    split at h
    · cases h
    next hkeyed =>
    dsimp only at h
    split at h
    · next hs hf =>
      cases h
      exact ⟨find?_lines_eq_none_iff.1 hkeyed, hsize.1 hs, hfill.1 hf⟩
    · cases h
    · cases h
  · rintro ⟨hkeyed, hs, hf⟩
    simp only [read, find?_lines_eq_none_iff.2 hkeyed, hsize.2 hs, hfill.2 hf]

-- Signs, marks, zeros in front and the end of a line do not count, nor what an earlier line said.
example : read " size = oops\r\n\n note\t= a = b\nsize=+0032\r\nfill = 0X+fF" = .ok (32, 0xff) := by
  decide +kernel

-- An earlier line does not stand in for the last one.
example : read "size=32\nfill=0xff\nsize=" = .error .noSize := by decide +kernel

/-- **The file of a uniform gap** stands for the bytes of the gap. -/
theorem gapBytes_ofGap {data : Bytes} {first last : Nat} {b : UInt8} (hlast : last ≤ data.length)
    (hlen : data.length < 2 ^ 64) (hfill : (Gap.between data first last).fill = some b)
    {number : Nat} {p : GapPiece} (hp : p = GapPiece.ofGap data number (Gap.between data first last))
    {reader : FileReader} (hread : reader p.fileName = .ok p.contents) :
    gapBytes reader p.fileName p.subject.size p.subject.fill
      = .ok (data.slice first (last - first)) := by
  obtain ⟨horder, hbytes⟩ := Gap.replicate_eq_slice hlast hfill
  have hsize : (Gap.between data first last).size = last - first := rfl
  have hsubject : p.subject = Gap.between data first last := hp ▸ rfl
  have hcontents : p.contents = Bytes.ofString (write (last - first) b) := by
    rw [hp, GapPiece.ofGap, hfill, ← hsize]
  rw [hsubject, hsize, hfill, ← hbytes]
  exact gapBytes_description (by omega) (hcontents ▸ hread) b

/-- **Descriptions have an exact grammar.** A text is read if and only if it describes a gap, and then as what
it describes. What is written for a size of 64 bits and a byte is read as these, so the file of a uniform gap
stands for the bytes of the gap. -/
theorem exact_grammar :
    (∀ (text : String) (size : Nat) (fill : UInt8),
      read text = .ok (size, fill) ↔ Describes text size fill) ∧
    (∀ (size : Nat) (fill : UInt8), size < 2 ^ 64 → read (write size fill) = .ok (size, fill)) ∧
    (∀ (data : Bytes) (first last : Nat) (b : UInt8), last ≤ data.length → data.length < 2 ^ 64 →
      (Gap.between data first last).fill = some b →
      ∀ (number : Nat) (p : GapPiece), p = GapPiece.ofGap data number (Gap.between data first last) →
      ∀ reader : FileReader, reader p.fileName = .ok p.contents →
        gapBytes reader p.fileName p.subject.size p.subject.fill
          = .ok (data.slice first (last - first))) := by
  refine ⟨?_, ?_, ?_⟩
  · intro text size fill
    exact read_eq_ok_iff
  · intro size fill hsize
    exact read_write hsize fill
  · intro data first last b hlast hlen hfill number p hp reader hread
    exact gapBytes_ofGap hlast hlen hfill hp hread

end FlashImage.GapFile
