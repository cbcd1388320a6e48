import FlashImage.Text.Lines
import FlashImage.Text.Number

/-!
# Descriptions of uniform gaps

A uniform gap is not kept as bytes but as two lines of text: how long it is, and what fills it. A
description can be edited by hand, so reading it is lenient about blanks and about lines that it does
not know; of repeated lines the last one counts.
-/

namespace FlashImage.GapFile

/-- **What is wrong with a description.** -/
inductive Fault where
  /-- A line that is not a key and a value. -/
  | noKey (line : String)
  | noSize
  | noFill
  deriving DecidableEq

/-- The wording of a fault. -/
def Fault.message : Fault → String
  | noKey line => s!"no key in '{line}'"
  | noSize => "no valid size"
  | noFill => "no valid fill"

/-- **The description of a gap** of `size` bytes filled with `fill`. -/
def write (size : Nat) (fill : UInt8) : String :=
  s!"size={Text.decimal size}\nfill=0x{Text.hexUpper 2 fill.toNat}\n"

/-! ### Numbers -/

/-- The value of a digit, in either case, in a base of up to sixteen. -/
def digit? (base : Nat) (c : Char) : Option Nat :=
  let value? :=
    if '0' ≤ c && c ≤ '9' then some (c.toNat - '0'.toNat)
    else if 'a' ≤ c && c ≤ 'f' then some (c.toNat - 'a'.toNat + 10)
    else if 'A' ≤ c && c ≤ 'F' then some (c.toNat - 'A'.toNat + 10)
    else none
  value?.bind fun v => if v < base then some v else none

/-- The value of digits, after those that stand for `value`. -/
def readDigits (base value : Nat) : List Char → Option Nat
  | [] => some value
  | c :: rest =>
    match digit? base c with
    | some d => readDigits base (value * base + d) rest
    | none => none

/-- **A number below `bound`**: digits, at least one, after an optional plus sign. -/
def number? (base bound : Nat) (cs : List Char) : Option Nat :=
  let digits := match cs with
    | '+' :: rest => rest
    | cs => cs
  if digits.isEmpty then none
  else (readDigits base 0 digits).bind fun n => if n < bound then some n else none

/-- The size that a value stands for: a decimal number of 64 bits. -/
def size? (value : List Char) : Option Nat := number? 10 UInt64.size value

/-- The byte that a value stands for: a hexadecimal number, marked as one or not. -/
def fill? (value : List Char) : Option UInt8 :=
  let digits := match value with
    | '0' :: 'x' :: rest => rest
    | '0' :: 'X' :: rest => rest
    | cs => cs
  (number? 16 UInt8.size digits).map UInt8.ofNat

/-! ### Reading -/

/-- **A line taken apart** at its first equals sign, without blanks. -/
def splitLine? (line : List Char) : Option (List Char × List Char) :=
  match line.span (· ≠ '=') with
  | (key, '=' :: value) => some (Text.trimChars key, Text.trimChars value)
  | _ => none

/-- The lines of a description that are not blank, without the blanks around them. -/
def lines (text : String) : List (List Char) :=
  ((Text.linesFrom [] text.toList).map Text.trimChars).filter fun line => !line.isEmpty

/-- The value of the last line with a key. -/
def valueOf? (key : String) (pairs : List (List Char × List Char)) : Option (List Char) :=
  (pairs.reverse.find? (·.1 = key.toList)).map Prod.snd

/-- **The gap that a description is about.** -/
def read (text : String) : Except Fault (Nat × UInt8) :=
  let ls := lines text
  match ls.find? fun line => (splitLine? line).isNone with
  -- such a line is refused whatever the others say
  | some line => .error (.noKey (String.ofList line))
  | none =>
    let pairs := ls.filterMap splitLine?
    match (valueOf? "size" pairs).bind size?, (valueOf? "fill" pairs).bind fill? with
    | some size, some fill => .ok (size, fill)
    | none, _ => .error .noSize
    | _, none => .error .noFill

end FlashImage.GapFile
