import FlashImage.Text.Lines
import Mathlib.Data.List.DropRight
import Mathlib.Data.List.TakeWhile

/-!
# Rows of a text, and what is left without blanks

Two words for how a text is laid out, each without a loop:

* the rows of a text are what stands between its line feeds. For a reader that drops the blanks around
  a line they are its lines (`Text.filter_map_trimChars_linesFrom`): a carriage return in front of a line
  feed is a blank, and what follows the last line feed is a row even if it is empty, but then it has no
  character that is not a blank;
* `Text.Trims cs ds` says that `cs` is `ds` with blanks on either side, and that `ds` neither starts nor
  ends with one. There is just one such `ds`, the one that trimming gives (`Text.trimChars_eq_iff`).
-/

namespace FlashImage.Text

/-! ### Blanks around a word -/

/-- Characters that are all blanks. -/
def Blank (cs : List Char) : Prop := ∀ c ∈ cs, isBlank c = true

/-- **Characters with no blank at either end.** -/
structure Bare (cs : List Char) : Prop where
  head : ∀ c, cs.head? = some c → isBlank c = false
  last : ∀ c, cs.getLast? = some c → isBlank c = false

/-- **What is left of a text without the blanks around it.** -/
def Trims (cs ds : List Char) : Prop :=
  Bare ds ∧ ∃ front back, Blank front ∧ Blank back ∧ cs = front ++ ds ++ back

theorem blank_takeWhile (cs : List Char) : Blank (cs.takeWhile isBlank) :=
  fun _ hc => List.mem_takeWhile_imp hc

/-- Trimming drops the blanks in front and then the ones behind. -/
theorem trimChars_eq (cs : List Char) : trimChars cs = (cs.dropWhile isBlank).rdropWhile isBlank := rfl

/-- Blanks in front do not count. -/
theorem trimChars_blank_append {front : List Char} (hfront : Blank front) (cs : List Char) :
    trimChars (front ++ cs) = trimChars cs := by
  rw [trimChars_eq, trimChars_eq, List.dropWhile_append_of_pos hfront]

/-- Blanks behind do not count. -/
theorem trimChars_append_blank (cs : List Char) {back : List Char} (hback : Blank back) :
    trimChars (cs ++ back) = trimChars cs := by
  have hreverse : Blank back.reverse := fun c hc => hback c (List.mem_reverse.1 hc)
  rw [trimChars, trimChars, List.dropWhile_append]
  split
  · next hempty =>
    -- There was nothing else, so the blanks behind are dropped as the ones in front.
    rw [List.isEmpty_iff.1 hempty, List.dropWhile_eq_nil_iff.2 hback]
  · rw [List.reverse_append, List.dropWhile_append_of_pos hreverse]

/-- What neither starts nor ends with a blank is kept. -/
theorem Bare.trimChars_eq {cs : List Char} (h : Bare cs) : trimChars cs = cs := by
  cases cs with
  | nil => rfl
  | cons c cs =>
    have hhead : isBlank c = false := h.head c rfl
    rw [Text.trimChars_eq, List.dropWhile_cons_of_neg (by rw [hhead]; decide),
      List.rdropWhile_eq_self_iff]
    intro hne
    rw [h.last _ (List.getLast?_eq_some_getLast hne)]
    decide

/-- Characters without blanks are not trimmed. -/
theorem trimChars_of_not_blank {cs : List Char} (h : ∀ c ∈ cs, isBlank c = false) :
    trimChars cs = cs := by
  apply Bare.trimChars_eq
  exact ⟨fun c hc => h c (List.mem_of_head? hc), fun c hc => h c (List.mem_of_getLast? hc)⟩

/-- What trimming gives neither starts nor ends with a blank. -/
theorem bare_trimChars (cs : List Char) : Bare (trimChars cs) where
  head c hc := by
    -- It starts as what is left without the blanks in front, if it starts at all.
    obtain ⟨rest, hrest⟩ := List.rdropWhile_prefix isBlank (cs.dropWhile isBlank)
    have hstart : (cs.dropWhile isBlank).head? = some c := by
      rw [← hrest, List.head?_append, ← trimChars_eq, hc]
      rfl
    have hnot := List.head?_dropWhile_not isBlank cs
    rw [hstart] at hnot
    simpa using hnot
  last c hc := by
    have hne : trimChars cs ≠ [] := by
      rintro hnil
      rw [hnil] at hc
      cases hc
    have hnot := List.rdropWhile_last_not isBlank (cs.dropWhile isBlank) hne
    rw [List.getLast?_eq_some_getLast hne, Option.some.injEq] at hc
    rw [← hc]
    exact Bool.eq_false_iff.2 hnot

/-- **Trimming** gives what is left of a text without the blanks around it. -/
theorem trims_trimChars (cs : List Char) : Trims cs (trimChars cs) := by
  refine ⟨bare_trimChars cs, cs.takeWhile isBlank, (cs.dropWhile isBlank).rtakeWhile isBlank,
    blank_takeWhile cs, fun c hc => List.mem_rtakeWhile_imp hc, ?_⟩
  rw [List.append_assoc, trimChars_eq, List.rdropWhile_append_rtakeWhile,
    List.takeWhile_append_dropWhile]

theorem trimChars_eq_iff {cs ds : List Char} : trimChars cs = ds ↔ Trims cs ds := by
  constructor
  · rintro rfl
    exact trims_trimChars cs
  · rintro ⟨hbare, front, back, hfront, hback, rfl⟩
    rw [trimChars_append_blank _ hback, trimChars_blank_append hfront, hbare.trimChars_eq]

/-- Nothing is left of blanks, and of nothing else. -/
theorem trimChars_eq_nil_iff {cs : List Char} : trimChars cs = [] ↔ Blank cs := by
  constructor
  · intro h
    obtain ⟨-, front, back, hfront, hback, rfl⟩ := trimChars_eq_iff.1 h
    rw [List.append_nil]
    exact List.forall_mem_append.2 ⟨hfront, hback⟩
  · intro h
    rw [← List.append_nil cs, trimChars_blank_append h]
    rfl

/-! ### Rows -/

/-- **The rows of a text**: what stands between its line feeds. -/
def rows (text : String) : List (List Char) := text.toList.splitOn '\n'

/-- A carriage return at the end of a line is a blank behind it. -/
theorem trimChars_dropReturn (done : List Char) :
    trimChars (dropReturn done).reverse = trimChars done.reverse := by
  unfold dropReturn
  split
  · next done =>
    have hreturn : Blank ['\r'] := by simp [Blank, isBlank]
    rw [List.reverse_cons, trimChars_append_blank _ hreturn]
  · rfl

/-- Of the lines and of the rows of a text the same is left without blanks. -/
theorem filter_map_trimChars_linesFrom (done cs : List Char) :
    ((linesFrom done cs).map trimChars).filter (!·.isEmpty)
      = ((List.splitOnPPrepend (· == '\n') cs done).map trimChars).filter (!·.isEmpty) := by
  -- Both collect the current line in reverse, so the induction is on what is still to be read.
  fun_induction linesFrom done cs with
  | case1 done hempty =>
    rw [List.isEmpty_iff.1 hempty]
    rfl
  | case2 done hempty => rfl
  | case3 done rest ih =>
    rw [List.splitOnPPrepend_cons_pos (by rfl), List.map_cons, List.map_cons, trimChars_dropReturn,
      List.filter_cons, List.filter_cons, ih]
    rfl
  | case4 done c rest hc ih =>
    rw [List.splitOnPPrepend_cons_neg (by simpa using hc), ih]

end FlashImage.Text
