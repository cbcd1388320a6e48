import FlashImage.Section

/-!
# Where sections are expected

Pointers and table entries announce sections. A `Placement` is such an announcement; it gives a section
if its range lies inside the image (`Placement.section?`) and a finding if it does not
(`Placement.findings`). An announcement of no bytes at all gives neither.
-/

namespace FlashImage

/-- **An announced section.** -/
structure Placement where
  code : SectionCode
  /-- The place in the image. -/
  offset : Nat
  /-- The number of bytes, unless it cannot be read. -/
  length : Option Nat
  origin : Origin
  entry : Option TocEntry
  deriving DecidableEq

namespace Placement

/-- The section that stands in a range, whether the image holds all of it or not. -/
def sectionOf (p : Placement) (data : Bytes) (encryptedImage : Bool) (length : Nat) : Section :=
  ⟨p.code, p.offset, data.slice p.offset length, p.origin, p.entry, encryptedImage⟩

/-- **The section announced**, if it has bytes and the image holds all of them. -/
def section? (p : Placement) (data : Bytes) (encryptedImage : Bool) : Option Section :=
  match p.length with
  | none => none
  | some length =>
    if length ≠ 0 ∧ p.offset + length ≤ data.length then
      some (p.sectionOf data encryptedImage length)
    else none

/-- The number of bytes that a structure of unreadable length is said to need. -/
def minLength : Nat := 8

/-- The finding that an image ends before `length` bytes at the announced place do. -/
def cutOff (p : Placement) (data : Bytes) (length : Nat) : Diagnostic :=
  .truncated p.code.name p.offset length data.length

/-- **What is wrong with an announced section**: it is cut off, or what its contents say. -/
def findings [Algorithms] (p : Placement) (data : Bytes) (encryptedImage : Bool) : List Diagnostic :=
  match p.length with
  | none => [p.cutOff data minLength]
  | some length =>
    if length = 0 then []
    else if p.offset + length ≤ data.length then
      (p.sectionOf data encryptedImage length).findings
    else [p.cutOff data length]

end Placement

end FlashImage
