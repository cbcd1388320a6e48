import FlashImage.Text.Number
import FlashImage.Text.Utf8

/-!
# JSON values

The extracted files describe sections in JSON. A value is kept as it was written: members of an
object in their order, repeated keys included, and a number as its literal. Whether a literal fits
the field it is meant for is decided where it is read (`FlashImage.Json.Decode`), so that a field
nobody asks for can hold anything.

The contents of a string are bytes. Text is stored as UTF-8; an escape for an unpaired surrogate is
stored in the three-byte form such a code point would have, which is never part of UTF-8. Hence
`Json.asText?` accepts exactly the strings that are text.

## Parts

* the type and its constructors from text, numbers and records;
* the classes of bytes that a reader tells apart, and what digits stand for.
-/

namespace FlashImage

/-- **A JSON value**, as written. -/
inductive Json where
  | null
  | bool (b : Bool)
  /-- A number, by its literal. -/
  | num (literal : Bytes)
  /-- A string, by the bytes it stands for. -/
  | str (contents : Bytes)
  | arr (items : List Json)
  /-- An object, by its members in order. -/
  | obj (members : List (Bytes × Json))

namespace Json

instance : Inhabited Json := ⟨null⟩

/-- A string holding a text. -/
def text (s : String) : Json := str (Bytes.ofString s)

/-- A natural number, in decimal. -/
def nat (n : Nat) : Json := num (Bytes.ofString (Text.decimal n))

/-- The value of something that may be absent; nothing is `null`. -/
def option {α : Type} (f : α → Json) : Option α → Json
  | none => null
  | some a => f a

/-- An array of values of one kind. -/
def list {α : Type} (f : α → Json) (as : List α) : Json := arr (as.map f)

/-- An object with named members, in the order given. -/
def record (members : List (String × Json)) : Json :=
  obj (members.map fun (name, value) => (Bytes.ofString name, value))

/-- A variant with a payload: an object whose only key is the name of the variant. -/
def variant (name : String) (payload : Json) : Json := record [(name, payload)]

/-! ### Classes of bytes -/

/-- Bytes that may stand between tokens. -/
def isBlank (b : UInt8) : Bool := b = 0x20 || b = 0x0a || b = 0x0d || b = 0x09

/-- Decimal digits. -/
def isDigit (b : UInt8) : Bool := 0x30 ≤ b && b ≤ 0x39

/-- The number written by decimal digits. -/
def digitsValue (ds : Bytes) : Nat := ds.foldl (fun n d => n * 10 + (d.toNat - 0x30)) 0

/-- The value of a hexadecimal digit in either case. -/
def hexValue? (b : UInt8) : Option Nat :=
  if 0x30 ≤ b && b ≤ 0x39 then some (b.toNat - 0x30)
  else if 0x61 ≤ b && b ≤ 0x66 then some (b.toNat - 0x61 + 10)
  else if 0x41 ≤ b && b ≤ 0x46 then some (b.toNat - 0x41 + 10)
  else none

/-- What follows the blanks at the front. -/
def skipBlanks (bs : Bytes) : Bytes := bs.dropWhile isBlank

end Json

end FlashImage
