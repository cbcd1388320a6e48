import FlashImage.Algorithms
import FlashImage.Section.Error
import FlashImage.Text.Utf8

/-!
# Compressed debug configuration

Two sections hold configuration in compressed form. It is inflated to be looked at; what is stored is
what is written back, since compressing the same text again need not give the same bytes.

## Parts

* `DebugIni` — settings as text, in a zlib stream;
* `DebugParams` — parameters, in a bare deflate stream or in no stream at all.
-/

namespace FlashImage

/-! ### Settings -/

/-- **Debug settings.** -/
structure DebugIni where
  compressedLength : Nat
  inflatedLength : Nat
  compressed : Bytes
  text : String
  deriving DecidableEq

namespace DebugIni

/-- **The settings in the contents of a section**, which have to be a zlib stream. -/
def decode [Algorithms] (d : Bytes) : Except DecodeError DebugIni :=
  match Algorithms.zlib d with
  | .ok ini => .ok ⟨d.length, ini.length, d, ini.toStringLossy⟩
  | .error e => .error (.inflate e.message)

/-- Only the lengths are part of the JSON form. -/
def toJson (i : DebugIni) : Json :=
  .record [("compressed_len", .nat i.compressedLength), ("ini_len", .nat i.inflatedLength)]

/-- Settings read from JSON are without contents. -/
def ofJson? (j : Json) : Option DebugIni := do
  let [compressedLength, inflatedLength] ← j.fields? ["compressed_len", "ini_len"] | none
  return ⟨← Json.given? Json.asSize? compressedLength, ← Json.given? Json.asSize? inflatedLength,
    [], ""⟩

end DebugIni

/-! ### Parameters -/

/-- **Debug parameters.** -/
structure DebugParams where
  length : Nat
  /-- The number of bytes of the inflated parameters, if they are compressed. -/
  inflatedLength : Option Nat
  stored : Bytes
  inflated : Bytes
  deriving DecidableEq

namespace DebugParams

/-- The fewest bytes that are taken for a stream. -/
def minStream : Nat := 16

/-- **The inflated parameters**, if the contents are a bare deflate stream. Few bytes are not taken
for one, nor are bytes that start like a zlib stream. -/
def inflate? [Algorithms] (d : Bytes) : Option Bytes :=
  if d.length < minStream || d.head? = some 0x78 then none else (Algorithms.deflate d).toOption

/-- The parameters in the contents of a section. -/
def decode [Algorithms] (d : Bytes) : DebugParams :=
  let inflated := inflate? d
  ⟨d.length, inflated.map List.length, d, inflated.getD []⟩

/-- Only the lengths are part of the JSON form. -/
def toJson (p : DebugParams) : Json :=
  .record [("len", .nat p.length), ("inflated_len", .option .nat p.inflatedLength)]

/-- Parameters read from JSON are without contents. -/
def ofJson? (j : Json) : Option DebugParams := do
  let [length, inflatedLength] ← j.fields? ["len", "inflated_len"] | none
  return ⟨← Json.given? Json.asSize? length, ← Json.optional? Json.asSize? inflatedLength, [], []⟩

end DebugParams

end FlashImage
