import FlashImage.Json.Decode

/-!
# Gaps

What no section covers is a gap. Erased flash and zero padding make most gaps uniform, and such a gap
is described by its length and the byte it is filled with.
-/

namespace FlashImage

/-- **A range of bytes that no section covers.** -/
structure Gap where
  first : Nat
  last : Nat
  /-- The byte that fills the gap, if it is a uniform one. -/
  fill : Option UInt8
  deriving DecidableEq

namespace Gap

/-- Bytes that uniform gaps are filled with: zero, and the byte of erased flash. -/
def isFiller (b : UInt8) : Bool := b = 0x00 || b = 0xff

/-- **The byte that fills a range**: a filler, if all bytes are that one. -/
def fillOf : Bytes → Option UInt8
  | [] => none
  | b :: rest => if isFiller b && rest.all (· = b) then some b else none

/-- The gap between two offsets of an image. -/
def between (data : Bytes) (first last : Nat) : Gap :=
  ⟨first, last, fillOf (data.slice first (last - first))⟩

/-- The number of bytes of a gap. -/
def size (g : Gap) : Nat := g.last - g.first

/-- A gap as text. -/
def text (g : Gap) : String :=
  let range := s!"gap {Text.hex 8 g.first}:{Text.hex 8 g.last} (0x{Text.hex 6 g.size})"
  match g.fill with
  | some b => s!"{range}  filled with {Text.hex 2 b.toNat}"
  | none => range

def toJson (g : Gap) : Json :=
  .record [("start", .nat g.first), ("end", .nat g.last),
    ("fill", .option (fun b => .nat b.toNat) g.fill)]

def ofJson? (j : Json) : Option Gap := do
  let [first, last, fill] ← j.fields? ["start", "end", "fill"] | none
  return ⟨← Json.given? Json.asSize? first, ← Json.given? Json.asSize? last,
    ← Json.optional? Json.asU8? fill⟩

end Gap

end FlashImage
