import FlashImage.Bytes.Access
import FlashImage.Json.Decode

/-!
# Opaque bytes as text

Byte areas without a structure of their own are written as hexadecimal digits, two lowercase digits a
byte. Reading accepts both cases, and nothing but digits in pairs.
-/

namespace FlashImage.Hex

/-- The lowercase hexadecimal digit of a number below sixteen. -/
def digit (n : Nat) : Char := Nat.digitChar n

/-- The value of a hexadecimal digit in either case. -/
def value? (c : Char) : Option Nat :=
  if '0' ≤ c && c ≤ '9' then some (c.toNat - '0'.toNat)
  else if 'a' ≤ c && c ≤ 'f' then some (c.toNat - 'a'.toNat + 10)
  else if 'A' ≤ c && c ≤ 'F' then some (c.toNat - 'A'.toNat + 10)
  else none

/-- The digits of a byte string. -/
def digits (bs : Bytes) : List Char :=
  bs.flatMap fun b => [digit (b.toNat / 16), digit (b.toNat % 16)]

/-- The bytes that digits stand for, after those read so far in reverse. -/
def readDigits (done : Bytes) : List Char → Option Bytes
  | [] => some done.reverse
  | high :: low :: rest =>
    match value? high, value? low with
    | some h, some l => readDigits (UInt8.ofNat (h * 16 + l) :: done) rest
    | _, _ => none
  | [_] => none

/-- **Bytes as text.** -/
def encode (bs : Bytes) : String := String.ofList (digits bs)

/-- **Text as bytes**, if it consists of pairs of digits. -/
def decode? (s : String) : Option Bytes := readDigits [] s.toList

def toJson (bs : Bytes) : Json := .text (encode bs)

def ofJson? (j : Json) : Option Bytes := j.asText?.bind decode?

end FlashImage.Hex
