import FlashImage.BitField
import FlashImage.Machine.Word
import FlashImage.Text.Field

/-!
# Reaching into a buffer

An offset that is read from the data can be anything, so the end of a range is summed up with care
(`rangeEnd`), and the range is tested against the buffer before it is used. The number of bytes of a row of
dwords, and the number of bits of a width that is reported, are products that nothing tests.

A field of a dword is read and written with shifts by its bounds, which are any two numbers here. A
`BitField` has bounds in order and below 32.
-/

namespace FlashImage.Machine

/-! ### Ranges -/

/-- The end of a range of a buffer of `size` bytes. -/
def rangeEnd (size offset len : Nat) : Except AccessError Nat :=
  match checkedAdd offset len with
  | some last => if last ≤ size then .ok last else .error (.shortBuffer offset len size)
  | none => .error (.shortBuffer offset len size)

def slice (bs : Bytes) (offset len : Nat) : Step AccessError Bytes := do
  let last ← settled (rangeEnd bs.length offset len)
  sliceBetween bs offset last

/-- A copy over a range, which has to be as long as what is copied. -/
def copyOver (bs : Bytes) (first last : Nat) (src : Bytes) : Run Bytes :=
  if first ≤ last ∧ last ≤ bs.length ∧ src.length = last - first then .ok (bs.overlay first src)
  else .error .outOfRange

def put (bs : Bytes) (offset : Nat) (src : Bytes) : Step AccessError Bytes := do
  let last ← settled (rangeEnd bs.length offset src.length)
  copyOver bs offset last src

/-- The refusal of `len` bytes for a field of another width, which is reported in bits. -/
def fieldOverflow {α : Type} (name : String) (len width : Nat) : Step AccessError α := do
  throw (.fieldOverflow name len ((← mul width 8) % UInt32.size))

/-- A field of a fixed width. -/
def exactWidth (name : String) (src : Bytes) (width : Nat) : Step AccessError Bytes :=
  if src.length = width then return src else fieldOverflow name src.length width

/-- A part that may be absent. -/
def part? (bs : Bytes) (first last : Nat) : Option Bytes :=
  if first ≤ last ∧ last ≤ bs.length then some (bs.slice first (last - first)) else none

/-! ### Words -/

/-- `n` bytes, copied into an array. -/
def array (bs : Bytes) (offset n : Nat) : Step AccessError Bytes := do
  copyOver (List.replicate n 0) 0 n (← slice bs offset n)

def readU8 (bs : Bytes) (offset : Nat) : Step AccessError UInt8 := do
  let bytes ← array bs offset 1
  return ← (element bytes 0 : Run UInt8)

def readU16 (bs : Bytes) (offset : Nat) : Step AccessError UInt16 := do
  return UInt16.ofNat (Bytes.toNat (← array bs offset 2))

def readU32 (bs : Bytes) (offset : Nat) : Step AccessError UInt32 := do
  return UInt32.ofNat (Bytes.toNat (← array bs offset 4))

def readU64 (bs : Bytes) (offset : Nat) : Step AccessError UInt64 := do
  return UInt64.ofNat (Bytes.toNat (← array bs offset 8))

/-- The parts of `size` bytes that a buffer has from its front on; what is left over is not one. -/
def chunks (size : Nat) (bs : Bytes) : List Bytes :=
  (List.range (bs.length / size)).map fun i => bs.slice (i * size) size

/-- `count` dwords in a row. -/
def readDwords (bs : Bytes) (offset count : Nat) : Step AccessError (List UInt32) := do
  let part ← slice bs offset (← mul count 4)
  (chunks 4 part).mapM fun c => do
    let b0 ← (element c 0 : Run UInt8)
    let b1 ← (element c 1 : Run UInt8)
    let b2 ← (element c 2 : Run UInt8)
    let b3 ← (element c 3 : Run UInt8)
    return UInt32.ofNat (Bytes.toNat [b0, b1, b2, b3])

/-! ### Fields of a dword -/

/-- The number of bits between two bounds. -/
def bitWidth (msb lsb : Nat) : Run Nat := do word UInt32.size ((← sub msb lsb) + 1)

def mask (msb lsb : Nat) : Run UInt32 := do
  let width ← bitWidth msb lsb
  if width = 32 then return 0xffffffff
  else
    let ones ← sub (← shiftLeft 1 width) 1
    return UInt32.ofNat (← shiftLeft ones lsb)

def bits (dword : UInt32) (msb lsb : Nat) : Run UInt32 := do
  shiftRight (dword &&& (← mask msb lsb)) lsb

def setBits (dword : UInt32) (msb lsb : Nat) (value : UInt32) : Run UInt32 := do
  let mask ← mask msb lsb
  let shifted := UInt32.ofNat (← shiftLeft value.toNat lsb)
  return (dword &&& ~~~mask) ||| (shifted &&& mask)

def field (f : BitField) (dwords : List UInt32) : Run UInt32 :=
  match dwords[f.dword]? with
  | some dword => bits dword f.msb f.lsb
  | none => .ok 0

/-- Writing a field. Where its dword would start is worked out whether there is such a dword or not. -/
def setField (f : BitField) (dwords : List UInt32) (value : UInt32) :
    Step AccessError (List UInt32) := do
  let limit ← shiftRight (← mask f.msb f.lsb) f.lsb
  if limit < value then throw (.fieldOverflow f.name value.toNat (← bitWidth f.msb f.lsb))
  else
    let offset ← mul f.dword 4
    let size ← mul dwords.length 4
    match dwords[f.dword]? with
    | some dword => return dwords.set f.dword (← setBits dword f.msb f.lsb value)
    | none => throw (.shortBuffer offset 4 size)

/-- Writing a truth value, as one or zero. -/
def setBool (f : BitField) (dwords : List UInt32) (value : Bool) : Step AccessError (List UInt32) :=
  setField f dwords (if value then 1 else 0)

/-! ### Text -/

def splitAt (bs : Bytes) (n : Nat) : Run (Bytes × Bytes) :=
  if n ≤ bs.length then .ok (bs.take n, bs.drop n) else .error .outOfRange

/-- A character field, taken apart at its first zero byte. -/
def fieldText (bs : Bytes) : Run FieldText := do
  let (contents, padding) ← splitAt bs (bs.findIdx (· = 0))
  return if contents.all FieldText.isPrintable && padding.all (· = 0)
      && !(Bytes.ofString FieldText.marker).isPrefixOf contents then
    .text (FieldText.asciiText contents)
  else .raw bs

/-- A character field, padded to its width. The padded field is a string of its own. -/
def toField (t : FieldText) (name : String) (width : Nat) : Step AccessError Bytes := do
  if width < t.bytes.length then fieldOverflow name t.bytes.length width
  else
    allocate width
    return t.bytes ++ List.replicate (width - t.bytes.length) 0

end FlashImage.Machine
