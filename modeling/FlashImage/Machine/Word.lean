import FlashImage.Bytes.BigEndian

/-!
# Operations that can fault

The definitions compute with numbers of any size, and a part of a byte string that is not there is
merely shorter. The program they describe has words of 64 bits, checked indices and strings of bounded
length: a sum, difference or product out of range, an index outside of its array, or a string that is
longer than one can be ends it, with a `Fault`. Here are these operations, each with its test.

A computation that can fault is a `Run`; one that can also refuse its input is a `Step`, and it is
*settled* if it does not fault, whether it refuses or not. Under which condition an operation does what the
definitions do is said in the theory of each of them.

## Parts

* `Fault`, `Run`, `Step` and `settled`;
* words: `add`, `mul`, `sub` and their kin;
* arrays, and the room that a string takes.
-/

namespace FlashImage.Machine

/-! ### Faults -/

/-- **Why a program ends** in the middle of a computation. -/
inductive Fault where
  | overflow
  | underflow
  | outOfRange
  /-- A string of bytes that is too long to be made. -/
  | capacity
  deriving DecidableEq

/-- A computation that can fault. -/
abbrev Run := Except Fault

/-- A computation that can fault, and can refuse its input for a reason. -/
abbrev Step (ε : Type) := ExceptT ε Run

/-- **A step without fault**: a result, or a refusal. -/
def settled {ε α : Type} (r : Except ε α) : Step ε α := ExceptT.mk (.ok r)

/-! ### Words -/

/-- A number as a word, of a type with `size` values. -/
def word (size n : Nat) : Run Nat := if n < size then .ok n else .error .overflow

def add (a b : Nat) : Run Nat := word UInt64.size (a + b)

def mul (a b : Nat) : Run Nat := word UInt64.size (a * b)

def sub (a b : Nat) : Run Nat := if b ≤ a then .ok (a - b) else .error .underflow

/-- A sum that is not there if it is out of range. -/
def checkedAdd (a b : Nat) : Option Nat := if a + b < UInt64.size then some (a + b) else none

/-- A product that is not there if it is out of range. -/
def checkedMul (a b : Nat) : Option Nat := if a * b < UInt64.size then some (a * b) else none

/-- A shift of a dword to the left; bits that leave it are lost. -/
def shiftLeft (x n : Nat) : Run Nat :=
  if n < 32 then .ok ((x <<< n) % UInt32.size) else .error .overflow

/-- A shift of a dword to the right. -/
def shiftRight (x : UInt32) (n : Nat) : Run UInt32 :=
  if n < 32 then .ok (x >>> UInt32.ofNat n) else .error .overflow

/-! ### Arrays -/

/-- The element at an index. -/
def element {α : Type} (xs : List α) (i : Nat) : Run α :=
  match xs[i]? with
  | some x => .ok x
  | none => .error .outOfRange

/-- Everything from an index on. -/
def sliceFrom (bs : Bytes) (first : Nat) : Run Bytes :=
  if first ≤ bs.length then .ok (bs.drop first) else .error .outOfRange

/-- Everything in front of an index. -/
def sliceTo (bs : Bytes) (last : Nat) : Run Bytes :=
  if last ≤ bs.length then .ok (bs.take last) else .error .outOfRange

/-- What lies between two indices. -/
def sliceBetween (bs : Bytes) (first last : Nat) : Run Bytes :=
  if first ≤ last ∧ last ≤ bs.length then .ok (bs.slice first (last - first)) else .error .outOfRange

/-- The number of bytes that no string reaches, which is half of what a word can count. -/
def maxSize : Nat := UInt64.size / 2

/-- Room for a string of `size` bytes. How much memory there is does not matter. -/
def allocate (size : Nat) : Run Unit := if size < maxSize then .ok () else .error .capacity

/-- A string of one byte, repeated. -/
def filled (size : Nat) (b : UInt8) : Run Bytes := do
  allocate size
  return List.replicate size b

end FlashImage.Machine
