import FlashImage.Bytes.BigEndian

/-!
# Text as bytes

Text is stored in UTF-8. Going from text to bytes always works (`Bytes.ofString`); the way back comes
in two forms:

* `Bytes.toString?` accepts exactly the byte strings that are UTF-8;
* `Bytes.toStringLossy` accepts everything, and writes one replacement character for each *maximal
  bad sequence*: the longest start of a well-formed character at that place, or a single byte where
  there is none.
-/

namespace FlashImage.Bytes

/-- The UTF-8 bytes of a text. -/
def ofString (s : String) : Bytes := s.toUTF8.data.toList

/-- The text whose UTF-8 bytes these are, if they are UTF-8. -/
def toString? (bs : Bytes) : Option String := String.fromUTF8? ⟨bs.toArray⟩

/-- The bytes of a text read back as that text. -/
@[simp] theorem toString?_ofString (s : String) : toString? (ofString s) = some s := by
  simp only [toString?, ofString, Array.toArray_toList, String.fromUTF8?, String.toUTF8]
  exact dif_pos s.isValidUTF8

/-- Different texts have different bytes. -/
theorem ofString_injective {s t : String} (h : ofString s = ofString t) : s = t := by
  have := congrArg toString? h
  simpa using this

/-! ### Reading what is not quite UTF-8 -/

/-- A byte that can follow the first byte of a character. -/
def isContinuation (b : UInt8) : Bool := 0x80 ≤ b && b ≤ 0xbf

/-- The second bytes that can follow the first byte of a three-byte character: not so small that two
bytes would have done, and not in the range of the surrogates. -/
def isSecondOfThree (first second : UInt8) : Bool :=
  if first = 0xe0 then 0xa0 ≤ second && second ≤ 0xbf
  else if first = 0xed then 0x80 ≤ second && second ≤ 0x9f
  else isContinuation second

/-- The second bytes that can follow the first byte of a four-byte character: not so small that three
bytes would have done, and not past the last code point. -/
def isSecondOfFour (first second : UInt8) : Bool :=
  if first = 0xf0 then 0x90 ≤ second && second ≤ 0xbf
  else if first = 0xf4 then 0x80 ≤ second && second ≤ 0x8f
  else isContinuation second

/-- How many bytes pass the tests for them, one after the other, and whether every test was passed. -/
def passing : List (UInt8 → Bool) → Bytes → Nat × Bool
  | [], _ => (0, true)
  | _ :: _, [] => (0, false)
  | test :: tests, b :: rest =>
    if test b then ((passing tests rest).1 + 1, (passing tests rest).2) else (0, false)

/-- **The sequence that a byte starts**: how many of the bytes behind it belong to it, and whether it
is a character. -/
def sequenceFrom (first : UInt8) (behind : Bytes) : Nat × Bool :=
  if first < 0x80 then (0, true)
  else if 0xc2 ≤ first && first ≤ 0xdf then passing [isContinuation] behind
  else if 0xe0 ≤ first && first ≤ 0xef then
    passing [isSecondOfThree first, isContinuation] behind
  else if 0xf0 ≤ first && first ≤ 0xf4 then
    passing [isSecondOfFour first, isContinuation, isContinuation] behind
  else (0, false)

/-- The bits of a code point that the first byte of a character holds. -/
def leadingBits (first : UInt8) : Nat :=
  if first < 0x80 then first.toNat
  else if first < 0xe0 then first.toNat - 0xc0
  else if first < 0xf0 then first.toNat - 0xe0
  else first.toNat - 0xf0

/-- The character spelled by a first byte and, six bits each, the bytes behind it. -/
def assemble (first : UInt8) (behind : Bytes) : Char :=
  Char.ofNat (behind.foldl (fun n b => n * 64 + (b.toNat - 0x80)) (leadingBits first))

/-- What stands for a bad sequence. -/
def replacementChar : Char := '\ufffd'

/-- **Lossy reading**, with the characters read so far in reverse. -/
def lossyChars (done : List Char) : Bytes → List Char
  | [] => done.reverse
  | first :: behind =>
    let (count, isChar) := sequenceFrom first behind
    let c := if isChar then assemble first (behind.take count) else replacementChar
    lossyChars (c :: done) (behind.drop count)
  termination_by bs => bs.length

/-- The text of a byte string, with a replacement character for each maximal bad sequence. -/
def toStringLossy (bs : Bytes) : String := String.ofList (lossyChars [] bs)

end FlashImage.Bytes
