import FlashImage.Json.Basic

/-!
# Writing JSON

Two layouts of the same value. `Json.pretty` puts every item and member on a line of its own, two
blanks deeper than the bracket around it, and writes nothing but the brackets where there is nothing
inside. `Json.compact` writes no blanks at all.

Inside strings only the quote, the backslash and the control characters are escaped; everything else
stands as it is.
-/

namespace FlashImage.Json

/-! ### Tokens -/

/-- One lowercase hexadecimal digit. -/
def hexDigit (n : Nat) : UInt8 := if n < 10 then UInt8.ofNat (0x30 + n) else UInt8.ofNat (0x57 + n)

/-- How one byte of a string is written: a short escape where there is one, the numbered escape for
other control characters, and the byte itself otherwise. -/
def escapeByte (b : UInt8) : Bytes :=
  if b = 0x22 then [0x5c, 0x22]
  else if b = 0x5c then [0x5c, 0x5c]
  else if b = 0x08 then [0x5c, 0x62]
  else if b = 0x0c then [0x5c, 0x66]
  else if b = 0x0a then [0x5c, 0x6e]
  else if b = 0x0d then [0x5c, 0x72]
  else if b = 0x09 then [0x5c, 0x74]
  else if b < 0x20 then
    [0x5c, 0x75, 0x30, 0x30, hexDigit (b.toNat / 16), hexDigit (b.toNat % 16)]
  else [b]

/-- A string literal. -/
def quoted (contents : Bytes) : Bytes :=
  0x22 :: (contents.flatMap escapeByte ++ [0x22])

/-- The word for a truth value. -/
def boolWord (b : Bool) : Bytes := Bytes.ofString (if b then "true" else "false")

/-- A new line, indented by `depth` levels of two blanks. -/
def newLine (depth : Nat) : Bytes := 0x0a :: List.replicate (2 * depth) 0x20

/-! ### Layouts -/

mutual

/-- **One item per line.** The text of a value whose surroundings are `depth` levels deep. -/
def prettyAt (depth : Nat) : Json → Bytes
  | null => Bytes.ofString "null"
  | bool b => boolWord b
  | num literal => literal
  | str contents => quoted contents
  | arr [] => [0x5b, 0x5d]
  | arr (item :: items) =>
    0x5b :: (newLine (depth + 1) ++ (prettyAt (depth + 1) item ++ prettyItems (depth + 1) items))
      ++ (newLine depth ++ [0x5d])
  | obj [] => [0x7b, 0x7d]
  | obj ((key, value) :: members) =>
    0x7b :: (newLine (depth + 1) ++ (quoted key ++ (0x3a :: 0x20 :: prettyAt (depth + 1) value)
      ++ prettyMembers (depth + 1) members)) ++ (newLine depth ++ [0x7d])

/-- The items after the first, each on a line of its own. -/
def prettyItems (depth : Nat) : List Json → Bytes
  | [] => []
  | item :: items => 0x2c :: (newLine depth ++ (prettyAt depth item ++ prettyItems depth items))

/-- The members after the first, each on a line of its own. -/
def prettyMembers (depth : Nat) : List (Bytes × Json) → Bytes
  | [] => []
  | (key, value) :: members =>
    0x2c :: (newLine depth ++ (quoted key ++ (0x3a :: 0x20 :: prettyAt depth value)
      ++ prettyMembers depth members))

end

/-- **The text of a value**, one item per line. -/
def pretty (j : Json) : Bytes := prettyAt 0 j

mutual

/-- **The text of a value without blanks.** -/
def compact : Json → Bytes
  | null => Bytes.ofString "null"
  | bool b => boolWord b
  | num literal => literal
  | str contents => quoted contents
  | arr [] => [0x5b, 0x5d]
  | arr (item :: items) => 0x5b :: (compact item ++ (compactItems items ++ [0x5d]))
  | obj [] => [0x7b, 0x7d]
  | obj ((key, value) :: members) =>
    0x7b :: (quoted key ++ (0x3a :: compact value) ++ (compactMembers members ++ [0x7d]))

/-- The items after the first. -/
def compactItems : List Json → Bytes
  | [] => []
  | item :: items => 0x2c :: (compact item ++ compactItems items)

/-- The members after the first. -/
def compactMembers : List (Bytes × Json) → Bytes
  | [] => []
  | (key, value) :: members =>
    0x2c :: (quoted key ++ (0x3a :: compact value) ++ compactMembers members)

end

end FlashImage.Json
