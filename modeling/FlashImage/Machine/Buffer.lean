import FlashImage.Machine.Access

/-!
# Writing into a buffer

Whatever is encoded or put together is written into a buffer that is changed where it is: as words, as bytes,
or as fields of a fixed width (`BufferWrite`). A write can be refused, and can fault. What was written before
stays in the buffer in the first case, and does not matter any more in the second.
-/

namespace FlashImage

/-- **A write to a buffer**: a word, bytes, or bytes that should have the width of a field. Any word can be
its offset or its width. -/
inductive BufferWrite where
  | u16 (offset : UInt64) (x : UInt16)
  | u32 (offset : UInt64) (x : UInt32)
  | u64 (offset : UInt64) (x : UInt64)
  | bytes (offset : UInt64) (src : Bytes)
  | field (offset : UInt64) (name : String) (src : Bytes) (width : UInt64)

namespace Machine

/-- Work on a buffer that is changed where it is. -/
abbrev InPlace := ExceptT AccessError (StateT Bytes Run)

/-- A step that leaves the buffer alone. -/
def InPlace.step {α : Type} (s : Step AccessError α) : InPlace α := ExceptT.mk (StateT.lift s.run)

/-- A copy into the buffer. -/
def overwrite (offset : Nat) (src : Bytes) : InPlace Unit := do
  let buffer ← get
  set (← InPlace.step (put buffer offset src))

end Machine

namespace BufferWrite

/-- Where the first byte goes. -/
def offset : BufferWrite → Nat
  | u16 offset _ | u32 offset _ | u64 offset _ | bytes offset _ | field offset _ _ _ => offset.toNat

/-- What is put there. -/
def source : BufferWrite → Bytes
  | u16 _ x => Bytes.u16 x
  | u32 _ x => Bytes.u32 x
  | u64 _ x => Bytes.u64 x
  | bytes _ src | field _ _ src _ => src

/-- **Doing a write.** -/
def inPlace : BufferWrite → Machine.InPlace Unit
  | field offset name src width => do
    let src ← Machine.InPlace.step (Machine.exactWidth name src width.toNat)
    Machine.overwrite offset.toNat src
  | w => Machine.overwrite w.offset w.source

end BufferWrite

end FlashImage
