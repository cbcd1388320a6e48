import FlashImage.Text.Hex

/-!
# Fixed-width character fields

A field such as a product name holds text padded with zero bytes to a fixed width. `FieldText.ofField`
takes it as text if it is printable ASCII followed by nothing but padding, and keeps its bytes
otherwise. In JSON both kinds share one string: text stands as it is, and bytes are written in
hexadecimal behind a marker. Text that happens to begin with the marker is kept as bytes, which is
what keeps the two kinds apart.
-/

namespace FlashImage

/-- **The contents of a character field.** -/
inductive FieldText where
  /-- Text, without its padding. -/
  | text (s : String)
  /-- Anything else, at the full width. -/
  | raw (bs : Bytes)
  deriving DecidableEq

namespace FieldText

/-- What marks bytes in the written form. -/
def marker : String := "hex:"

/-- Printable ASCII. -/
def isPrintable (b : UInt8) : Bool := 0x20 ≤ b && b < 0x7f

/-- The text of printable bytes. -/
def asciiText (bs : Bytes) : String := String.ofList (bs.map fun b => Char.ofNat b.toNat)

/-- **Reading a field.** -/
def ofField (field : Bytes) : FieldText :=
  let contents := field.takeWhile (· ≠ 0)
  let padding := field.dropWhile (· ≠ 0)
  if contents.all isPrintable && padding.all (· = 0)
      && !(Bytes.ofString marker).isPrefixOf contents then
    text (asciiText contents)
  else raw field

/-- The bytes of the contents, without padding. -/
def bytes : FieldText → Bytes
  | text s => Bytes.ofString s
  | raw bs => bs

/-- **Writing a field**, padded with zeros to `width` bytes. Contents longer than the field are
refused under its name. A width is reported in bits, as a 32-bit number. Any number can be a width here; for
which of them there is room is a matter of `Machine.toField`. -/
def toField (t : FieldText) (name : String) (width : Nat) : Except AccessError Bytes :=
  if width < t.bytes.length then
    .error (.fieldOverflow name t.bytes.length (width * 8 % UInt32.size))
  else .ok (t.bytes ++ List.replicate (width - t.bytes.length) 0)

/-- The written form. -/
def display : FieldText → String
  | text s => s
  | raw bs => marker ++ Hex.encode bs

/-- The field a written form stands for. -/
def ofDisplay? (s : String) : Option FieldText :=
  if marker.toList.isPrefixOf s.toList then
    (Hex.readDigits [] (s.toList.drop marker.length)).map raw
  else some (text s)

def toJson (t : FieldText) : Json := .text t.display

def ofJson? (j : Json) : Option FieldText := j.asText?.bind ofDisplay?

/-- A written field has the width asked for. -/
theorem length_of_toField {t : FieldText} {name : String} {width : Nat} {bs : Bytes}
    (h : t.toField name width = .ok bs) : bs.length = width := by
  unfold toField at h
  split at h
  · cases h
  · cases h
    simp only [List.length_append, List.length_replicate]
    omega

end FieldText

end FlashImage
