import FlashImage.Text.Hex

/-!
# The anchor of an image

An image starts with a pattern of eight bytes. Depending on how the flash is divided, it sits at one
of a few aligned offsets, and the first of them where the pattern stands is the one that counts.
Addresses inside the image are relative to it.
-/

namespace FlashImage.Magic

/-- **The pattern** at the start of an image. -/
def pattern : Bytes := [0x4d, 0x54, 0x46, 0x57, 0xab, 0xcd, 0xef, 0x00]

/-- **The offsets** at which an image may start, in the order in which they are tried. -/
def searchOffsets : List Nat :=
  [0x0000000, 0x0010000, 0x0020000, 0x0040000, 0x0080000, 0x0100000, 0x0200000, 0x0400000,
   0x0800000, 0x1000000, 0x2000000]

/-- **The start of the image**, if the pattern stands at one of the offsets. -/
def find? (data : Bytes) : Option Nat :=
  searchOffsets.find? fun o => Bytes.slice data o pattern.length = pattern

/-- Where an image was found, and how. -/
structure Info where
  offset : Nat
  pattern : String
  searchOffsets : List Nat
  deriving DecidableEq

namespace Info

/-- The record of an image found at an offset. -/
def found (offset : Nat) : Info := ⟨offset, Hex.encode Magic.pattern, Magic.searchOffsets⟩

def toJson (i : Info) : Json :=
  .record [("offset", .nat i.offset), ("pattern", .text i.pattern),
    ("search_offsets", .list .nat i.searchOffsets)]

def ofJson? (j : Json) : Option Info := do
  let [offset, pattern, searchOffsets] ← j.fields? ["offset", "pattern", "search_offsets"] | none
  return ⟨← Json.given? Json.asSize? offset, ← Json.given? Json.asText? pattern,
    ← Json.given? (Json.asList? Json.asSize?) searchOffsets⟩

end Info

end FlashImage.Magic
