import FlashImage.Bytes.BigEndian
import FlashImage.Text.Number

/-!
# Checked access to a buffer

Encoders and decoders reach into buffers at offsets they compute or read from the data itself. Each
access here states its range first: it succeeds when `offset + len` does not pass the end of the
buffer and fails with `AccessError.shortBuffer` otherwise. A failed write has no effect, because the
buffer it would have changed is never returned.

## Parts

* `AccessError` and its wording;
* `Bytes.slice?`, `Bytes.put?`, `Bytes.exactWidth` — byte ranges and fields of a fixed width;
* `readU8` … `readU64`, `writeU16` — big-endian words;
* `readDwords` — a row of dwords.
-/

namespace FlashImage

/-- **Why an access or an encoding fails.** -/
inductive AccessError where
  /-- `len` bytes at `offset` do not fit a buffer of `size` bytes. -/
  | shortBuffer (offset len size : Nat)
  /-- A value does not fit the width of the field it is written to. -/
  | fieldOverflow (field : String) (value bits : Nat)
  /-- The section keeps its bytes verbatim, so there is nothing to encode. -/
  | rawPayload
  deriving DecidableEq, Repr

namespace AccessError

/-- The wording of an access error. -/
def message : AccessError → String
  | shortBuffer offset len size =>
    s!"{Text.decimal len} bytes @ {Text.hex 8 offset} exceed buffer of {Text.hex 8 size}"
  | fieldOverflow field value bits =>
    s!"value 0x{Text.hex 1 value} does not fit {Text.decimal bits}-bit field {field}"
  | rawPayload => "raw payload cannot be encoded from its projection"

end AccessError

namespace Bytes

/-! ### Byte ranges -/

/-- **Checked part.** The `len` bytes at `offset`, if the buffer holds all of them. -/
def slice? (bs : Bytes) (offset len : Nat) : Except AccessError Bytes :=
  if offset + len ≤ bs.length then .ok (bs.slice offset len)
  else .error (.shortBuffer offset len bs.length)

/-- The buffer with `src` laid over it at `offset`. -/
def overlay (bs : Bytes) (offset : Nat) (src : Bytes) : Bytes :=
  bs.take offset ++ src ++ bs.drop (offset + src.length)

/-- An overlay inside the buffer keeps its length. -/
theorem length_overlay {bs : Bytes} {offset : Nat} {src : Bytes}
    (h : offset + src.length ≤ bs.length) : (overlay bs offset src).length = bs.length := by
  simp only [overlay, List.length_append, List.length_take, List.length_drop]
  omega

/-- **Checked write.** The buffer with `src` laid over it at `offset`, if it fits. -/
def put? (bs : Bytes) (offset : Nat) (src : Bytes) : Except AccessError Bytes :=
  if offset + src.length ≤ bs.length then .ok (bs.overlay offset src)
  else .error (.shortBuffer offset src.length bs.length)

/-- **The width of a field is exact.** `src` unchanged if it has `width` bytes, and an overflow of
the named field otherwise. A width is reported in bits, as a 32-bit number. -/
def exactWidth (name : String) (src : Bytes) (width : Nat) : Except AccessError Bytes :=
  if src.length = width then .ok src
  else .error (.fieldOverflow name src.length (width * 8 % UInt32.size))

/-! ### Big-endian words -/

/-- The byte at `offset`. -/
def readU8 (bs : Bytes) (offset : Nat) : Except AccessError UInt8 := do
  return UInt8.ofNat (toNat (← bs.slice? offset 1))

/-- The 16-bit word at `offset`. -/
def readU16 (bs : Bytes) (offset : Nat) : Except AccessError UInt16 := do
  return UInt16.ofNat (toNat (← bs.slice? offset 2))

/-- The 32-bit word at `offset`. -/
def readU32 (bs : Bytes) (offset : Nat) : Except AccessError UInt32 := do
  return UInt32.ofNat (toNat (← bs.slice? offset 4))

/-- The 64-bit word at `offset`. -/
def readU64 (bs : Bytes) (offset : Nat) : Except AccessError UInt64 := do
  return UInt64.ofNat (toNat (← bs.slice? offset 8))

/-- The buffer with a 16-bit word written at `offset`. -/
def writeU16 (bs : Bytes) (offset : Nat) (x : UInt16) : Except AccessError Bytes :=
  bs.put? offset (u16 x)

/-- `count` dwords in a row from `offset` on. -/
def readDwords (bs : Bytes) (offset count : Nat) : Except AccessError (List UInt32) := do
  return toDwords (← bs.slice? offset (count * 4))

end Bytes

end FlashImage
