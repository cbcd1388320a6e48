import FlashImage.Json.Decode

/-!
# The layout of an image

The index of an extraction lists the pieces of the image by their place: sections, by their number
among the section records, and gaps, with the files that hold them.

In JSON a piece carries its kind beside its fields, or in front of them in array form. The fields can
be told apart only once the kind is known, so a piece is set aside whole before it is read, and all of
it has to be of a form that can be set aside (`Json.isPlain`).
-/

namespace FlashImage

/-- **A piece of an image.** -/
inductive LayoutEntry where
  | section (index : Nat) (type : String) (first last size : Nat)
  | gap (first last size : Nat) (fill : Option UInt8) (fileName : String)
  deriving DecidableEq

namespace LayoutEntry

/-- Where a piece starts. -/
def first : LayoutEntry → Nat
  | .section _ _ first _ _ => first
  | .gap first _ _ _ _ => first

def toJson : LayoutEntry → Json
  | .section index type first last size =>
    .record [("type", .text "section"), ("section_index", .nat index),
      ("section_type", .text type), ("start", .nat first), ("end", .nat last),
      ("size", .nat size)]
  | .gap first last size fill fileName =>
    .record [("type", .text "gap"), ("start", .nat first), ("end", .nat last), ("size", .nat size),
      ("fill", .option (fun b => .nat b.toNat) fill), ("file_name", .text fileName)]

/-- The key that holds the kind of a piece. -/
def kindKey : Bytes := Bytes.ofString "type"

/-- **The kind of a piece and its fields**, taken apart. -/
def split? : Json → Option (String × Json)
  | .obj members =>
    match members.partition (·.1 = kindKey) with
    | ([(_, kind)], fields) => kind.asText?.map (·, .obj fields)
    | _ => none
  | .arr (kind :: fields) => kind.asText?.map (·, .arr fields)
  | _ => none

/-- How deep arrays and objects can be nested where something is set aside. -/
def maxDepth : Nat := 127

/-- **The piece a JSON value stands for**, inside of `enclosing` arrays and objects. -/
def ofJson? (enclosing : Nat) (j : Json) : Option LayoutEntry := do
  if !j.isPlain (maxDepth - enclosing) then none
  else match ← split? j with
    | ("section", fields) =>
      let [index, type, first, last, size] ←
        fields.fields? ["section_index", "section_type", "start", "end", "size"] | none
      return .section (← Json.given? Json.asSize? index) (← Json.given? Json.asText? type)
        (← Json.given? Json.asSize? first) (← Json.given? Json.asSize? last)
        (← Json.given? Json.asSize? size)
    | ("gap", fields) =>
      let [first, last, size, fill, fileName] ←
        fields.fields? ["start", "end", "size", "fill", "file_name"] | none
      return .gap (← Json.given? Json.asSize? first) (← Json.given? Json.asSize? last)
        (← Json.given? Json.asSize? size) (← Json.optional? Json.asU8? fill)
        (← Json.given? Json.asText? fileName)
    | _ => none

end LayoutEntry

end FlashImage
