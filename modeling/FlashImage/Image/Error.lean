import FlashImage.Pointer
import FlashImage.Toc.Kind

/-!
# What keeps an image from being read

Reading an image needs four anchors: the pattern it starts with, room for the pointer array behind it,
a pointer to the image's table of contents, and that table. Without one of them there is nothing to
show; everything else that is wrong with an image becomes a finding.
-/

namespace FlashImage

/-- **The anchor that is missing.** -/
inductive ParseError where
  | notFirmware
  | truncated (what : String) (offset size : Nat)
  | missingPointer (role : Role)
  | toc (e : TocError)
  deriving DecidableEq

namespace ParseError

/-- The wording of a missing anchor. -/
def message : ParseError → String
  | notFirmware => "no firmware image magic found"
  | truncated what offset size =>
    s!"{what} @ {Text.hex 8 offset} exceeds image size {Text.hex 8 size}"
  | missingPointer role => s!"no {role.name} hardware pointer"
  | toc e => e.message

def toJson : ParseError → Json
  | notFirmware => .text "NotFirmware"
  | truncated what offset size =>
    .variant "Truncated"
      (.record [("what", .text what), ("offset", .nat offset), ("size", .nat size)])
  | missingPointer role => .variant "MissingPointer" (.record [("role", role.toJson)])
  | toc e => .variant "Toc" e.toJson

def ofJson? (j : Json) : Option ParseError := do
  match ← j.asVariant? with
  | ("NotFirmware", payload) => if Json.isBare payload then some notFirmware else none
  | ("Truncated", some payload) =>
    let [what, offset, size] ← payload.fields? ["what", "offset", "size"] | none
    return truncated (← Json.given? Json.asText? what) (← Json.given? Json.asSize? offset)
      (← Json.given? Json.asSize? size)
  | ("MissingPointer", some payload) =>
    let [role] ← payload.fields? ["role"] | none
    return missingPointer (← Json.given? Role.ofJson? role)
  | ("Toc", some payload) => toc <$> TocError.ofJson? payload
  | _ => none

end ParseError

end FlashImage
