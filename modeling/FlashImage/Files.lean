import FlashImage.Bytes.BigEndian

/-!
# Named files

An extraction is a set of files: contents by name. Names are unique; writing a name again replaces the
contents in place.
-/

namespace FlashImage

/-- **Files**, as pairs of a name and its contents. -/
abbrev Files := List (String × Bytes)

namespace Files

/-- The contents of a file. -/
def get? (files : Files) (name : String) : Option Bytes := files.lookup name

/-- **Write a file**, in place of one of the same name or at the end. -/
def insert (name : String) (contents : Bytes) : Files → Files
  | [] => [(name, contents)]
  | (n, c) :: rest =>
    if n = name then (name, contents) :: rest else (n, c) :: insert name contents rest

/-- Remove a file. -/
def erase (files : Files) (name : String) : Files := files.filter (·.1 ≠ name)

/-- The files that writing in a row leaves behind. -/
def writeAll (written : List (String × Bytes)) : Files :=
  written.foldl (fun files (name, contents) => insert name contents files) []

/-- What was written is what is read. -/
@[simp] theorem get?_insert_self (name : String) (contents : Bytes) (files : Files) :
    (insert name contents files).get? name = some contents := by
  induction files with
  | nil => simp [insert, get?]
  | cons f files ih =>
    obtain ⟨n, c⟩ := f
    by_cases h : n = name
    · simp [insert, get?, h]
    · have hb : (name == n) = false := beq_false_of_ne (Ne.symm h)
      simpa [insert, get?, h, hb, List.lookup_cons] using ih

/-- Writing one file leaves the others alone. -/
theorem get?_insert_of_ne {name other : String} (contents : Bytes) (files : Files)
    (h : other ≠ name) : (insert name contents files).get? other = files.get? other := by
  induction files with
  | nil =>
    have hb : (other == name) = false := beq_false_of_ne h
    simp [insert, get?, List.lookup_cons, hb]
  | cons f files ih =>
    obtain ⟨n, c⟩ := f
    by_cases hf : n = name
    · have hb : (other == name) = false := beq_false_of_ne h
      have hb' : (other == n) = false := hf ▸ hb
      simp only [insert, if_pos hf, get?, List.lookup_cons, hb, hb']
    · simp only [insert, if_neg hf, get?, List.lookup_cons]
      split
      · rfl
      · exact ih

end Files

end FlashImage
