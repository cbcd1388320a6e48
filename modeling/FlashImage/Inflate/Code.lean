import FlashImage.Inflate.Source

/-!
# Prefix codes

A prefix code is a binary tree with symbols at its leaves; a symbol is read by walking down from the
root, one bit a step. A stream gives only the length of each symbol's code word, and the words follow
from the lengths: shorter words come first, words of one length are consecutive numbers in the order
of their symbols.

The lengths must leave no room and no overlap. The one exception is a *sparse* code, which has at most
one symbol, with a word of one bit. It reads a bit like any other code, but only the zero bit can mean
something.
-/

namespace FlashImage.Inflate

/-- **A prefix code.** -/
inductive Code where
  | unused
  | symbol (s : Nat)
  | node (zero one : Code)

namespace Code

/-- A code with a symbol put at the end of a path. -/
def insert (s : Nat) : (path : List Bool) → Code → Code
  | [], _ => symbol s
  | bit :: path, node zero one =>
    if bit then node zero (insert s path one) else node (insert s path zero) one
  | bit :: path, _ =>
    if bit then node unused (insert s path unused) else node (insert s path unused) unused

/-- The next symbol. -/
def read : Code → Bits → Except InflateError (Nat × Bits)
  | unused, _ => .error .corrupt
  | symbol s, bits => .ok (s, bits)
  | node zero one, bits =>
    match bits.next with
    | .error e => .error e
    | .ok (true, bits) => one.read bits
    | .ok (false, bits) => zero.read bits

/-- The longest code word. -/
def maxLength : Nat := 15

/-- The `length` lowest bits of a code word, most significant first. -/
def path (word length : Nat) : List Bool :=
  (List.range length).map fun i => word.testBit (length - 1 - i)

/-- The symbols with a code word of one length. -/
def symbolsOf (lengths : List Nat) (length : Nat) : List Nat :=
  (lengths.zipIdx.filter (·.1 = length)).map Prod.snd

/-- The code without symbols. It has words of one bit, but they mean nothing. -/
def empty : Code := node unused unused

/-- **The code of given lengths.** A length of zero means that the symbol has no code word. -/
def ofLengths (lengths : List Nat) : Code :=
  let levels := (List.range maxLength).map (· + 1)
  let place := fun (acc : Nat × Code) length =>
    let (word, code) := (symbolsOf lengths length).foldl
      (fun (word, code) s => (word + 1, code.insert s (path word length))) (acc.1 * 2, acc.2)
    (word, code)
  (levels.foldl place (0, empty)).2

/-- The lengths of the code words that there are. -/
def used (lengths : List Nat) : List Nat := lengths.filter (· ≠ 0)

/-- Whether the lengths leave neither room nor overlap. -/
def isFull (lengths : List Nat) : Bool :=
  (used lengths).foldl (fun taken length => taken + (1 <<< (maxLength - length))) 0 = 1 <<< maxLength

/-- Whether there is at most one code word, of one bit. -/
def isSparse (lengths : List Nat) : Bool := used lengths = [] || used lengths = [1]

/-- **The code of given lengths**, if they leave no room. -/
def full? (lengths : List Nat) : Except InflateError Code :=
  if isFull lengths then .ok (ofLengths lengths) else .error .corrupt

/-- **The code of given lengths**, if they leave no room or make a sparse code. -/
def fullOrSparse? (lengths : List Nat) : Except InflateError Code :=
  if isFull lengths || isSparse lengths then .ok (ofLengths lengths) else .error .corrupt

end Code

end FlashImage.Inflate
