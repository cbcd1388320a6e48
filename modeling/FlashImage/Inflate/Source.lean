import FlashImage.Bytes.BigEndian

/-!
# Reading a byte string bit by bit

A compressed stream is a sequence of bits, of which each byte holds eight, least significant first. A
`Bits` is what is left of one: the bits left of the byte that was started last, and the bytes after
it. Running out of bits and finding bits that mean nothing are different failures.
-/

namespace FlashImage

/-- **Why a stream cannot be expanded.** -/
inductive InflateError where
  /-- The stream says something that no stream can say. -/
  | corrupt
  /-- The input ends before the stream does. -/
  | incomplete
  deriving DecidableEq

/-- The wording of an expansion failure. -/
def InflateError.message : InflateError → String
  | corrupt => "corrupt deflate stream"
  | incomplete => "incomplete deflate stream"

namespace Inflate

/-- **What is left of a stream.** -/
structure Bits where
  /-- The bits left of the byte that was started last. -/
  pending : List Bool
  /-- The bytes after it. -/
  rest : Bytes

namespace Bits

/-- The bits of a byte, least significant first. -/
def ofByte (b : UInt8) : List Bool := (List.range 8).map b.toNat.testBit

/-- The next bit. -/
def next : Bits → Except InflateError (Bool × Bits)
  | ⟨bit :: pending, rest⟩ => .ok (bit, ⟨pending, rest⟩)
  | ⟨[], []⟩ => .error .incomplete
  | ⟨[], b :: rest⟩ => .ok (b.toNat.testBit 0, ⟨(ofByte b).drop 1, rest⟩)

/-- The number written by the next `count` bits, least significant first. -/
def number : (count : Nat) → Bits → Except InflateError (Nat × Bits)
  | 0, bits => .ok (0, bits)
  | count + 1, bits => do
    let (bit, bits) ← bits.next
    let (n, bits) ← number count bits
    return (n * 2 + bit.toNat, bits)

/-- What is left after the byte that was started last. -/
def align (bits : Bits) : Bits := ⟨[], bits.rest⟩

/-- The next `count` whole bytes. -/
def bytes (count : Nat) (bits : Bits) : Except InflateError (Bytes × Bits) :=
  let taken := bits.rest.take count
  if taken.length = count then .ok (taken, ⟨[], bits.rest.drop count⟩) else .error .incomplete

end Bits

end Inflate

end FlashImage
