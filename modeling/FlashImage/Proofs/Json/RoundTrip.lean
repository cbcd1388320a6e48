import FlashImage.Proofs.Json.Tokens
import Mathlib.Data.List.DropRight

/-!
# Written JSON is read back

`Json.pretty` puts a value on lines, and `Json.parse?` gives that value again (`parse?_pretty`). The only
thing a value has to do for it is to hold natural numbers in decimal where it holds numbers at all
(`IsDecimal`): a literal such as `1-` is a value of the type as well, and no reader could know where it
was meant to end.

The reader goes from turn to turn and never calls itself on a part, so the statement that goes through
an induction is about the turns: a value that is expected is finished later, with the frames around it
as they were and the reader at the end of its text. A turn per byte is what the reader is given; the
turns that are left always outnumber the bytes that are left, and that is carried along.

## Parts

* `IsDecimal`, with one lemma for each way to build a value;
* the first byte of a value, and the blanks in front of it;
* the turns: one without parts, the items of an array, the members of an object;
* the whole text.
-/

namespace FlashImage.Json

/-! ### Values that hold natural numbers -/

mutual

/-- **Every number in a value is a natural number in decimal.** -/
def IsDecimal : Json → Prop
  | num literal => ∃ n, literal = Bytes.ofString (Text.decimal n)
  | arr items => AreDecimal items
  | obj members => AreMembersDecimal members
  | _ => True

/-- Every number in these items is a natural number in decimal. -/
def AreDecimal : List Json → Prop
  | [] => True
  | item :: items => IsDecimal item ∧ AreDecimal items

/-- Every number in these members is a natural number in decimal. -/
def AreMembersDecimal : List (Bytes × Json) → Prop
  | [] => True
  | (_, value) :: members => IsDecimal value ∧ AreMembersDecimal members

end

@[simp] theorem isDecimal_null : null.IsDecimal := trivial

@[simp] theorem isDecimal_bool (b : Bool) : (bool b).IsDecimal := trivial

@[simp] theorem isDecimal_text (s : String) : (text s).IsDecimal := trivial

@[simp] theorem isDecimal_nat (n : Nat) : (nat n).IsDecimal := ⟨n, rfl⟩

theorem areDecimal_iff {items : List Json} : AreDecimal items ↔ ∀ j ∈ items, j.IsDecimal := by
  induction items with
  | nil => simp [AreDecimal]
  | cons item items ih => simp [AreDecimal, ih]

theorem areMembersDecimal_iff {members : List (Bytes × Json)} :
    AreMembersDecimal members ↔ ∀ m ∈ members, m.2.IsDecimal := by
  induction members with
  | nil => simp [AreMembersDecimal]
  | cons m members ih => simp [AreMembersDecimal, ih]

@[simp] theorem isDecimal_arr (items : List Json) :
    (arr items).IsDecimal ↔ ∀ j ∈ items, j.IsDecimal := areDecimal_iff

@[simp] theorem isDecimal_list {α : Type} (f : α → Json) (as : List α) :
    (list f as).IsDecimal ↔ ∀ a ∈ as, (f a).IsDecimal := by
  rw [list, isDecimal_arr, List.forall_mem_map]

@[simp] theorem isDecimal_record (members : List (String × Json)) :
    (record members).IsDecimal ↔ ∀ m ∈ members, m.2.IsDecimal := by
  show AreMembersDecimal (members.map _) ↔ _
  rw [areMembersDecimal_iff, List.forall_mem_map]

@[simp] theorem isDecimal_variant (name : String) (payload : Json) :
    (variant name payload).IsDecimal ↔ payload.IsDecimal := by
  rw [variant, isDecimal_record, List.forall_mem_singleton]

theorem isDecimal_option {α : Type} {f : α → Json} {a : Option α} (h : ∀ a, (f a).IsDecimal) :
    (option f a).IsDecimal := by
  cases a with
  | none => exact isDecimal_null
  | some a => exact h a

/-! ### The first byte of a value -/

/-- A digit is no blank. -/
theorem isBlank_of_isDigit {d : UInt8} (hd : isDigit d = true) : isBlank d = false := by
  cases hblank : isBlank d with
  | false => rfl
  | true =>
    simp only [isBlank, Bool.or_eq_true, decide_eq_true_eq] at hblank
    rcases hblank with ((rfl | rfl) | rfl) | rfl <;> cases hd

/-- A value starts with a byte that is no blank and closes no bracket. -/
theorem head_prettyAt (depth : Nat) {j : Json} (h : j.IsDecimal) :
    ∃ b bs, prettyAt depth j = b :: bs ∧ isBlank b = false ∧ b ≠ 0x5d := by
  cases j with
  | null => exact ⟨0x6e, [0x75, 0x6c, 0x6c], rfl, rfl, by decide⟩
  | bool b =>
    cases b
    · exact ⟨0x66, [0x61, 0x6c, 0x73, 0x65], rfl, rfl, by decide⟩
    · exact ⟨0x74, [0x72, 0x75, 0x65], rfl, rfl, by decide⟩
  | num literal =>
    obtain ⟨n, rfl⟩ := h
    obtain ⟨d, ds, hds⟩ := List.exists_cons_of_ne_nil (decimal_ne_nil n)
    have hd : isDigit d = true := isDigit_of_mem_decimal (n := n) (hds ▸ List.mem_cons_self)
    refine ⟨d, ds, hds, isBlank_of_isDigit hd, ?_⟩
    rintro rfl
    cases hd
  | str contents => exact ⟨0x22, _, rfl, rfl, by decide⟩
  | arr items => cases items <;> exact ⟨0x5b, _, rfl, rfl, by decide⟩
  | obj members => rcases members with _ | ⟨⟨key, value⟩, members⟩ <;> exact ⟨0x7b, _, rfl, rfl, by decide⟩

/-- A byte that is no blank stays at the front. -/
theorem skipBlanks_cons {b : UInt8} (h : isBlank b = false) (bs : Bytes) :
    skipBlanks (b :: bs) = b :: bs := by
  rw [skipBlanks, List.dropWhile_cons_of_neg (by simp [h])]

/-- A new line and what it is indented by are blanks. -/
theorem skipBlanks_newLine (depth : Nat) (rest : Bytes) :
    skipBlanks (newLine depth ++ rest) = skipBlanks rest := by
  rw [skipBlanks, List.dropWhile_append_of_pos]
  · rfl
  · intro b hb
    rw [newLine, List.mem_cons, List.mem_replicate] at hb
    rcases hb with rfl | ⟨-, rfl⟩ <;> rfl

/-- Blanks in front of a value do not matter. -/
theorem read_skipBlanks (fuel : Nat) (frames : List Frame) (bs : Bytes) :
    read fuel none frames (skipBlanks bs) = read fuel none frames bs := by
  cases fuel with
  | zero => rfl
  | succ fuel =>
    have hskip : skipBlanks (skipBlanks bs) = skipBlanks bs := List.dropWhile_idempotent _ _
    rw [read.eq_2, read.eq_2, hskip]

/-- The blank behind a colon does not matter. -/
theorem read_space (fuel : Nat) (frames : List Frame) (bs : Bytes) :
    read fuel none frames (0x20 :: bs) = read fuel none frames bs := by
  -- Both sides skip blanks first, and then are the same.
  rw [← read_skipBlanks fuel frames bs, ← read_skipBlanks fuel frames (0x20 :: bs)]
  rfl

/-! ### Turns of the reader -/

/-- **A value is read as it was written**: with more turns to go than bytes left, the reader comes from
expecting a value to having it, in the same frames, with more turns to go than bytes left. -/
def ReadsTo (j : Json) (written : Bytes) : Prop :=
  ∀ fuel frames rest, AfterValue rest → (written ++ rest).length < fuel →
    ∃ fuel', rest.length < fuel' ∧
      read fuel none frames (written ++ rest) = read fuel' (some j) frames rest

/-- The turn for a value without parts. -/
theorem readsTo_of_readScalar? {j : Json} {b : UInt8} {bs : Bytes} (hb : isBlank b = false)
    (harr : b ≠ 0x5b) (hobj : b ≠ 0x7b)
    (h : ∀ fuel rest, AfterValue rest → (b :: bs ++ rest).length ≤ fuel →
      readScalar? fuel (b :: bs ++ rest) = some (j, rest)) :
    ReadsTo j (b :: bs) := by
  intro fuel frames rest hrest hfuel
  obtain ⟨fuel, rfl⟩ := Nat.exists_eq_succ_of_ne_zero (Nat.ne_zero_of_lt hfuel)
  have hscalar := h fuel rest hrest (by omega)
  rw [List.length_append, List.length_cons] at hfuel
  refine ⟨fuel, by omega, ?_⟩
  rw [read.eq_2, List.cons_append, skipBlanks_cons hb]
  rw [List.cons_append] at hscalar
  simp [harr, hobj, hscalar]

/-- A key is read as it was written. -/
theorem readKey?_quoted {fuel : Nat} (key rest : Bytes) (h : key.length < fuel) :
    readKey? fuel (quoted key ++ 0x3a :: rest) = some (key, rest) := by
  rw [quoted, List.cons_append, readKey?, readString_quoted key _ h]
  rfl

/-- The turn that opens an array. -/
theorem read_openArray (fuel : Nat) (frames : List Frame) (depth : Nat) {item : Json} (rest : Bytes)
    (hitem : item.IsDecimal) :
    read (fuel + 1) none frames (0x5b :: (newLine depth ++ (prettyAt depth item ++ rest)))
      = read fuel none (.item [] :: frames) (prettyAt depth item ++ rest) := by
  obtain ⟨b, bs, hbs, hblank, hclose⟩ := head_prettyAt depth hitem
  rw [read.eq_2, skipBlanks_cons rfl]
  simp [skipBlanks_newLine, hbs, skipBlanks_cons hblank, hclose]

/-- The turn that opens an object and reads the first key. -/
theorem read_openObject {fuel : Nat} (frames : List Frame) (depth : Nat) (key rest : Bytes)
    (hkey : key.length < fuel) :
    read (fuel + 1) none frames (0x7b :: (newLine depth ++ (quoted key ++ 0x3a :: rest)))
      = read fuel none (.member [] key :: frames) rest := by
  have hopen : readKey? fuel (quoted key ++ 0x3a :: rest) = some (key, rest) :=
    readKey?_quoted key rest hkey
  rw [quoted, List.cons_append] at hopen ⊢
  -- What stands behind the first quote matters only for how it is read, so it need not be seen.
  generalize (key.flatMap escapeByte ++ [0x22]) ++ 0x3a :: rest = tail at hopen ⊢
  rw [read.eq_2, skipBlanks_cons rfl]
  simp [skipBlanks_newLine, skipBlanks_cons, isBlank, hopen]

/-- The turn that goes on to the next item. -/
theorem read_nextItem (fuel : Nat) (frames : List Frame) (before : List Json) (value : Json)
    (depth : Nat) (rest : Bytes) :
    read (fuel + 1) (some value) (.item before :: frames) (0x2c :: (newLine depth ++ rest))
      = read fuel none (.item (value :: before) :: frames) rest := by
  rw [← read_skipBlanks fuel _ rest, ← skipBlanks_newLine depth rest, read_skipBlanks]
  rfl

/-- The turn that closes an array. -/
theorem read_closeArray (fuel : Nat) (frames : List Frame) (before : List Json) (value : Json)
    (depth : Nat) (rest : Bytes) :
    read (fuel + 1) (some value) (.item before :: frames) (newLine depth ++ 0x5d :: rest)
      = read fuel (some (arr (value :: before).reverse)) frames rest := by
  rw [read.eq_4, skipBlanks_newLine]
  rfl

/-- The turn that goes on to the next member and reads its key. -/
theorem read_nextMember {fuel : Nat} (frames : List Frame) (before : List (Bytes × Json)) (key : Bytes)
    (value : Json) (depth : Nat) (key2 rest : Bytes) (hkey2 : key2.length < fuel) :
    read (fuel + 1) (some value) (.member before key :: frames)
        (0x2c :: (newLine depth ++ (quoted key2 ++ 0x3a :: rest)))
      = read fuel none (.member ((key, value) :: before) key2 :: frames) rest := by
  have hquote : skipBlanks (quoted key2 ++ 0x3a :: rest) = quoted key2 ++ 0x3a :: rest :=
    skipBlanks_cons rfl _
  rw [read.eq_5, skipBlanks_cons rfl]
  simp only [skipBlanks_newLine, hquote, readKey?_quoted key2 rest hkey2]

/-- The turn that closes an object. -/
theorem read_closeObject (fuel : Nat) (frames : List Frame) (before : List (Bytes × Json))
    (key : Bytes) (value : Json) (depth : Nat) (rest : Bytes) :
    read (fuel + 1) (some value) (.member before key :: frames) (newLine depth ++ 0x7d :: rest)
      = read fuel (some (obj ((key, value) :: before).reverse)) frames rest := by
  rw [read.eq_5, skipBlanks_newLine]
  rfl

/-- What follows an item is a comma or a new line. -/
theorem afterValue_prettyItems (depth depth' : Nat) (items : List Json) (rest : Bytes) :
    AfterValue (prettyItems depth items ++ (newLine depth' ++ rest)) := by
  cases items with
  | nil => exact afterValue_newLine depth' rest
  | cons item items => exact afterValue_comma _

/-- What follows the value of a member is a comma or a new line. -/
theorem afterValue_prettyMembers (depth depth' : Nat) (members : List (Bytes × Json)) (rest : Bytes) :
    AfterValue (prettyMembers depth members ++ (newLine depth' ++ rest)) := by
  rcases members with _ | ⟨⟨key, value⟩, members⟩
  · exact afterValue_newLine depth' rest
  · exact afterValue_comma _

/-! ### A whole value -/

/-- The word for a truth value is read. -/
theorem readsTo_boolWord (b : Bool) : ReadsTo (bool b) (boolWord b) := by
  cases b <;> exact readsTo_of_readScalar? rfl (by decide) (by decide) fun _ _ _ _ => rfl

/-- A natural number is read. -/
theorem readsTo_decimal (n : Nat) :
    ReadsTo (num (Bytes.ofString (Text.decimal n))) (Bytes.ofString (Text.decimal n)) := by
  have hread {rest : Bytes} (hrest : AfterValue rest) := readNumber?_decimal n hrest
  have hdigits : ∀ b ∈ Bytes.ofString (Text.decimal n), isDigit b = true :=
    fun b hb => isDigit_of_mem_decimal hb
  obtain ⟨d, ds, hds⟩ := List.exists_cons_of_ne_nil (decimal_ne_nil n)
  rw [hds] at hread hdigits ⊢
  have hd := hdigits d List.mem_cons_self
  -- A digit opens neither a bracket, nor a string, nor a word.
  have hne : ∀ c, isDigit c = false → d ≠ c := by
    rintro c hc rfl
    rw [hd] at hc
    cases hc
  refine readsTo_of_readScalar? (isBlank_of_isDigit hd) (hne _ rfl) (hne _ rfl)
    fun fuel rest hrest _ => ?_
  have hnumber := hread hrest
  rw [List.cons_append] at hnumber ⊢
  rw [readScalar?, hnumber]
  · rfl
  all_goals exact fun _ h => hne _ rfl (List.cons.inj h).1

/-- A string is read. -/
theorem readsTo_quoted (contents : Bytes) : ReadsTo (str contents) (quoted contents) := by
  refine readsTo_of_readScalar? rfl (by decide) (by decide) fun fuel rest _ hfuel => ?_
  have hlength := length_lt_length_quoted contents
  rw [quoted] at hlength
  rw [List.length_append] at hfuel
  rw [List.cons_append, readScalar?, readString_quoted contents rest (by omega)]
  rfl

mutual

/-- **A value is read as it was written.** The induction is on the value; its items and members are
read in the two lemmas that follow. -/
theorem readsTo_prettyAt (depth : Nat) : (j : Json) → j.IsDecimal → ReadsTo j (prettyAt depth j)
  | null, _ => readsTo_of_readScalar? rfl (by decide) (by decide) fun _ _ _ _ => rfl
  | bool b, _ => readsTo_boolWord b
  | num literal, h => by
    obtain ⟨n, rfl⟩ := h
    exact readsTo_decimal n
  | str contents, _ => readsTo_quoted contents
  | arr [], _ => by
    intro fuel frames rest _ hfuel
    obtain ⟨fuel, rfl⟩ := Nat.exists_eq_succ_of_ne_zero (Nat.ne_zero_of_lt hfuel)
    rw [prettyAt, List.length_append, List.length_cons] at hfuel
    exact ⟨fuel, by omega, rfl⟩
  | arr (item :: items), h => by
    obtain ⟨hitem, hitems⟩ := h
    intro fuel frames rest hrest hfuel
    obtain ⟨fuel, rfl⟩ := Nat.exists_eq_succ_of_ne_zero (Nat.ne_zero_of_lt hfuel)
    simp only [prettyAt, List.cons_append, List.append_assoc, List.nil_append] at hfuel ⊢
    rw [List.length_cons, List.length_append] at hfuel
    -- One turn for the bracket, some for the first item, and some for the others.
    rw [read_openArray fuel frames (depth + 1) _ hitem]
    obtain ⟨fuel1, hfuel1, hread1⟩ := readsTo_prettyAt (depth + 1) item hitem fuel (.item [] :: frames) _
      (afterValue_prettyItems (depth + 1) depth items (0x5d :: rest)) (by omega)
    obtain ⟨fuel2, hfuel2, hread2⟩ := read_prettyItems depth items hitems fuel1 frames [] item rest hfuel1
    exact ⟨fuel2, hfuel2, hread1.trans hread2⟩
  | obj [], _ => by
    intro fuel frames rest _ hfuel
    obtain ⟨fuel, rfl⟩ := Nat.exists_eq_succ_of_ne_zero (Nat.ne_zero_of_lt hfuel)
    rw [prettyAt, List.length_append, List.length_cons] at hfuel
    exact ⟨fuel, by omega, rfl⟩
  | obj ((key, value) :: members), h => by
    obtain ⟨hvalue, hmembers⟩ := h
    intro fuel frames rest hrest hfuel
    obtain ⟨fuel, rfl⟩ := Nat.exists_eq_succ_of_ne_zero (Nat.ne_zero_of_lt hfuel)
    have hkey := length_lt_length_quoted key
    simp only [prettyAt, List.cons_append, List.append_assoc, List.nil_append] at hfuel ⊢
    rw [List.length_cons, List.length_append, List.length_append, List.length_cons,
      List.length_cons] at hfuel
    -- One turn for the bracket and the first key, some for its value, and some for the others.
    rw [read_openObject frames (depth + 1) key _ (by omega), read_space]
    obtain ⟨fuel1, hfuel1, hread1⟩ := readsTo_prettyAt (depth + 1) value hvalue fuel
      (.member [] key :: frames) _
      (afterValue_prettyMembers (depth + 1) depth members (0x7d :: rest)) (by omega)
    obtain ⟨fuel2, hfuel2, hread2⟩ :=
      read_prettyMembers depth members hmembers fuel1 frames [] key value rest hfuel1
    exact ⟨fuel2, hfuel2, hread1.trans hread2⟩

/-- **The items after the first** are read one by one, up to the bracket behind them. -/
theorem read_prettyItems (depth : Nat) : (items : List Json) → AreDecimal items →
    ∀ fuel frames before value rest,
      (prettyItems (depth + 1) items ++ (newLine depth ++ 0x5d :: rest)).length < fuel →
      ∃ fuel', rest.length < fuel' ∧
        read fuel (some value) (.item before :: frames)
            (prettyItems (depth + 1) items ++ (newLine depth ++ 0x5d :: rest))
          = read fuel' (some (arr ((value :: before).reverse ++ items))) frames rest
  | [], _ => by
    intro fuel frames before value rest hfuel
    obtain ⟨fuel, rfl⟩ := Nat.exists_eq_succ_of_ne_zero (Nat.ne_zero_of_lt hfuel)
    rw [prettyItems, List.nil_append, read_closeArray, List.append_nil]
    simp only [prettyItems, List.nil_append, List.length_append, List.length_cons] at hfuel
    exact ⟨fuel, by omega, rfl⟩
  | item :: items, h => by
    obtain ⟨hitem, hitems⟩ := h
    intro fuel frames before value rest hfuel
    obtain ⟨fuel, rfl⟩ := Nat.exists_eq_succ_of_ne_zero (Nat.ne_zero_of_lt hfuel)
    simp only [prettyItems, List.cons_append, List.append_assoc] at hfuel ⊢
    rw [List.length_cons, List.length_append] at hfuel
    rw [read_nextItem]
    obtain ⟨fuel1, hfuel1, hread1⟩ := readsTo_prettyAt (depth + 1) item hitem fuel
      (.item (value :: before) :: frames) _
      (afterValue_prettyItems (depth + 1) depth items (0x5d :: rest)) (by omega)
    obtain ⟨fuel2, hfuel2, hread2⟩ :=
      read_prettyItems depth items hitems fuel1 frames (value :: before) item rest hfuel1
    -- The items so far are kept in reverse, so the one that was just read comes last.
    rw [List.reverse_cons, List.append_assoc, List.singleton_append] at hread2
    exact ⟨fuel2, hfuel2, hread1.trans hread2⟩

/-- **The members after the first** are read one by one, up to the bracket behind them. -/
theorem read_prettyMembers (depth : Nat) : (members : List (Bytes × Json)) → AreMembersDecimal members →
    ∀ fuel frames before key value rest,
      (prettyMembers (depth + 1) members ++ (newLine depth ++ 0x7d :: rest)).length < fuel →
      ∃ fuel', rest.length < fuel' ∧
        read fuel (some value) (.member before key :: frames)
            (prettyMembers (depth + 1) members ++ (newLine depth ++ 0x7d :: rest))
          = read fuel' (some (obj (((key, value) :: before).reverse ++ members))) frames rest
  | [], _ => by
    intro fuel frames before key value rest hfuel
    obtain ⟨fuel, rfl⟩ := Nat.exists_eq_succ_of_ne_zero (Nat.ne_zero_of_lt hfuel)
    rw [prettyMembers, List.nil_append, read_closeObject, List.append_nil]
    simp only [prettyMembers, List.nil_append, List.length_append, List.length_cons] at hfuel
    exact ⟨fuel, by omega, rfl⟩
  | (key2, value2) :: members, h => by
    obtain ⟨hvalue, hmembers⟩ := h
    intro fuel frames before key value rest hfuel
    obtain ⟨fuel, rfl⟩ := Nat.exists_eq_succ_of_ne_zero (Nat.ne_zero_of_lt hfuel)
    -- The key is read, then the value, then the other members, each with the fuel that is left.
    have hkey := length_lt_length_quoted key2
    simp only [prettyMembers, List.cons_append, List.append_assoc] at hfuel ⊢
    rw [List.length_cons, List.length_append, List.length_append, List.length_cons,
      List.length_cons] at hfuel
    rw [read_nextMember frames before key value (depth + 1) key2 _ (by omega), read_space]
    obtain ⟨fuel1, hfuel1, hread1⟩ := readsTo_prettyAt (depth + 1) value2 hvalue fuel
      (.member ((key, value) :: before) key2 :: frames) _
      (afterValue_prettyMembers (depth + 1) depth members (0x7d :: rest)) (by omega)
    obtain ⟨fuel2, hfuel2, hread2⟩ := read_prettyMembers depth members hmembers fuel1 frames
      ((key, value) :: before) key2 value2 rest hfuel1
    rw [List.reverse_cons, List.append_assoc, List.singleton_append] at hread2
    exact ⟨fuel2, hfuel2, hread1.trans hread2⟩

end

/-- **Written JSON is read back.** -/
theorem parse?_pretty {j : Json} (h : j.IsDecimal) : parse? j.pretty = some j := by
  obtain ⟨fuel, hfuel, hread⟩ := readsTo_prettyAt 0 j h (j.pretty.length + 2) [] [] afterValue_nil
    (by rw [List.append_nil]; exact Nat.lt_add_of_pos_right (by decide))
  obtain ⟨fuel, rfl⟩ := Nat.exists_eq_succ_of_ne_zero (Nat.ne_zero_of_lt hfuel)
  rw [List.append_nil] at hread
  rw [parse?, pretty, show (prettyAt 0 j).length = j.pretty.length from rfl, hread]
  rfl

end FlashImage.Json
