/-!
# Numbers and columns in text

Reports, error messages and file names all show numbers in one of three forms: plain decimal,
decimal padded with zeros, and lowercase hexadecimal padded with zeros. A pad is a *minimum* width:
a longer number keeps all of its digits, so no two numbers ever share a written form.

## Parts

* `Text.decimal`, `Text.decimalPad`, `Text.hex`, `Text.hexUpper` — numbers;
* `Text.column`, `Text.columnRight` — text padded with blanks to a column.
-/

namespace FlashImage.Text

/-- Characters padded at the front to a minimum width. -/
def padFront (fill : Char) (width : Nat) (cs : List Char) : List Char :=
  List.replicate (width - cs.length) fill ++ cs

@[simp] theorem length_padFront (fill : Char) (width : Nat) (cs : List Char) :
    (padFront fill width cs).length = max width cs.length := by
  simp only [padFront, List.length_append, List.length_replicate]
  omega

/-- A number in decimal. -/
def decimal (n : Nat) : String := String.ofList (Nat.toDigits 10 n)

/-- A number in decimal, with zeros in front up to `width` digits. -/
def decimalPad (width n : Nat) : String :=
  String.ofList (padFront '0' width (Nat.toDigits 10 n))

/-- A number in lowercase hexadecimal, with zeros in front up to `width` digits. -/
def hex (width n : Nat) : String :=
  String.ofList (padFront '0' width (Nat.toDigits 16 n))

/-- A number in uppercase hexadecimal, with zeros in front up to `width` digits. -/
def hexUpper (width n : Nat) : String :=
  String.ofList ((padFront '0' width (Nat.toDigits 16 n)).map Char.toUpper)

/-- Text padded with blanks on the right, counted in characters. -/
def column (width : Nat) (s : String) : String :=
  s ++ String.ofList (List.replicate (width - s.length) ' ')

/-- Text padded with blanks on the left, counted in characters. -/
def columnRight (width : Nat) (s : String) : String :=
  String.ofList (List.replicate (width - s.length) ' ') ++ s

end FlashImage.Text
