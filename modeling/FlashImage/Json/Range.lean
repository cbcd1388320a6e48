import FlashImage.Json.Basic

/-!
# The range of numbers

A number that is read without knowing what for has to be one that a double can stand for, and the only
way to fail is to be too large. It is the *evaluated* number that counts, and evaluation is a short one:
leading digits are taken as an integer while that has 64 bits, later digits before the point only move
the point, and later ones behind it are dropped. The integer and the power of ten that belongs to it
are doubles then, and so is their product. Each of these three steps rounds, so a number close to the
largest double can be refused although it is smaller, or accepted although it is larger.

## Parts

* `nearestDouble` — rounding to the precision of a double;
* `scientific` — a literal as an integer and a power of ten;
* `isFinite` — whether the number that a literal stands for is in range.
-/

namespace FlashImage.Json

/-! ### Doubles -/

/-- The number of significant bits of a double. -/
def doublePrecision : Nat := 53

/-- **The double nearest to a natural number**, and of two nearest ones the even one; there is no bound
on its size. -/
def nearestDouble (n : Nat) : Nat :=
  -- the distance of neighbouring doubles around `n`
  let unit := 1 <<< (n.log2 + 1 - doublePrecision)
  let below := n / unit
  let rest := n % unit
  if unit < 2 * rest || (2 * rest = unit && below % 2 = 1) then (below + 1) * unit else below * unit

/-- The smallest product that is rounded to no double: half a step above the largest one. -/
def doubleLimit : Nat := 1 <<< 1024 - 1 <<< 970

/-- The largest power of ten that is a double. -/
def maxPowerOfTen : Nat := 308

/-! ### Literals -/

/-- **Digits appended to a number** while the result has 64 bits; the digits that are left over come
back. -/
def appendDigits (n : Nat) : Bytes → Nat × Bytes
  | [] => (n, [])
  | d :: ds =>
    let longer := n * 10 + (d.toNat - 0x30)
    if longer < UInt64.size then appendDigits longer ds else (n, d :: ds)

/-- The power of ten that an exponent stands for; no exponent stands for none. -/
def exponentValue : Bytes → Int
  | [] => 0
  | _ :: 0x2d :: ds => -(digitsValue ds : Int)
  | _ :: 0x2b :: ds => digitsValue ds
  | _ :: ds => digitsValue ds

/-- **A literal as an integer and a power of ten**, without its sign. -/
def scientific (literal : Bytes) : Nat × Int :=
  let body := literal.dropWhile (· = 0x2d)
  let (mantissa, exponent) := body.span fun b => b ≠ 0x65 && b ≠ 0x45
  let (whole, point) := mantissa.span (· ≠ 0x2e)
  let fraction := point.drop 1
  let (n, moving) := appendDigits 0 whole
  let (n, dropped) := appendDigits n fraction
  (n, exponentValue exponent + moving.length - (fraction.length - dropped.length))

/-- **Whether a literal is in the range of a double.** Small numbers always are. -/
def isFinite (literal : Bytes) : Bool :=
  let (n, power) := scientific literal
  if n = 0 || power < 0 then true
  else power ≤ maxPowerOfTen
    && nearestDouble n * nearestDouble (Nat.pow 10 power.toNat) < doubleLimit

end FlashImage.Json
