import FlashImage.BitField
import FlashImage.Digest.Md5
import FlashImage.Section.Error
import FlashImage.Text.Hex
import FlashImage.Version

/-!
# Signatures, keys and forbidden versions

Signatures and keys are carried along and never checked. Bytes behind the last whole record are kept,
since they are not always padding.

## Parts

* `ImageSignature` — the signature of an image;
* `PublicKey` and `PublicKeys` — the keys it is checked with;
* `ForbiddenVersions` — the versions that must not be flashed.
-/

namespace FlashImage

/-! ### Signatures -/

/-- **The signature of an image.** -/
structure ImageSignature where
  type : UInt32
  signature : Bytes
  padding : Bytes
  deriving DecidableEq

namespace ImageSignature

/-- **The signature of `length` bytes** in the contents of a section. -/
def decode (length : Nat) (d : Bytes) : Except DecodeError ImageSignature := do
  needBytes d (4 + length)
  return ⟨d.u32At 0, d.slice 4 length, d.drop (4 + length)⟩

def encode (s : ImageSignature) : Bytes := Bytes.u32 s.type ++ s.signature ++ s.padding

/-- A signature as text: its type and its length in bits. -/
def text (s : ImageSignature) : String :=
  s!"  Signature type {Text.hex 8 s.type.toNat}, {Text.decimal (s.signature.length * 8)} bits"

def toJson (s : ImageSignature) : Json :=
  .record [("sig_type", .nat s.type.toNat), ("signature", Hex.toJson s.signature),
    ("padding", Hex.toJson s.padding)]

def ofJson? (j : Json) : Option ImageSignature := do
  let [type, signature, padding] ← j.fields? ["sig_type", "signature", "padding"] | none
  return ⟨← Json.given? Json.asU32? type, ← Json.given? Hex.ofJson? signature,
    ← Json.given? Hex.ofJson? padding⟩

end ImageSignature

/-! ### Keys -/

/-- **A public key.** -/
structure PublicKey where
  exponent : UInt32
  uuid : Bytes
  key : Bytes
  deriving DecidableEq

namespace PublicKey

/-- The number of bytes of a key's identifier. -/
def uuidSize : Nat := 16

/-- The number of bytes of a stored key with a modulus of `length` bytes. -/
def size (length : Nat) : Nat := 4 + uuidSize + length

/-- The key stored at an offset. -/
def decodeAt (length : Nat) (bs : Bytes) (offset : Nat) : PublicKey :=
  ⟨bs.u32At offset, bs.slice (offset + 4) uuidSize, bs.slice (offset + 4 + uuidSize) length⟩

def encode (k : PublicKey) : Bytes := Bytes.u32 k.exponent ++ k.uuid ++ k.key

/-- **The digest a key is known by**, over its modulus and its exponent. -/
def fingerprint (k : PublicKey) : Bytes := Md5.digest (k.key ++ Bytes.u32 k.exponent)

/-- A key as text. -/
def text (k : PublicKey) : String :=
  s!"{Hex.encode k.uuid} exp {Text.decimal k.exponent.toNat} md5 {Hex.encode k.fingerprint}"

def toJson (k : PublicKey) : Json :=
  .record [("exponent", .nat k.exponent.toNat), ("uuid", Hex.toJson k.uuid),
    ("key", Hex.toJson k.key)]

def ofJson? (j : Json) : Option PublicKey := do
  let [exponent, uuid, key] ← j.fields? ["exponent", "uuid", "key"] | none
  return ⟨← Json.given? Json.asU32? exponent, ← Json.given? Hex.ofJson? uuid,
    ← Json.given? Hex.ofJson? key⟩

end PublicKey

/-- **The keys of an image.** -/
structure PublicKeys where
  keys : List PublicKey
  /-- What is left behind the last whole key. -/
  tail : Bytes
  deriving DecidableEq

namespace PublicKeys

/-- **The keys with a modulus of `length` bytes** in the contents of a section: as many as there are,
and at least one. -/
def decode (length : Nat) (d : Bytes) : Except DecodeError PublicKeys := do
  needBytes d (PublicKey.size length)
  let n := d.length / PublicKey.size length
  return ⟨(List.range n).map fun i => .decodeAt length d (i * PublicKey.size length),
    d.drop (n * PublicKey.size length)⟩

def encode (ks : PublicKeys) : Bytes := ks.keys.flatMap PublicKey.encode ++ ks.tail

/-- The keys as text, one a line. -/
def text (ks : PublicKeys) : String :=
  "\n".intercalate (ks.keys.map fun k => s!"  Key {k.text}")

def toJson (ks : PublicKeys) : Json :=
  .record [("keys", .list PublicKey.toJson ks.keys), ("tail", Hex.toJson ks.tail)]

def ofJson? (j : Json) : Option PublicKeys := do
  let [keys, tail] ← j.fields? ["keys", "tail"] | none
  return ⟨← Json.given? (Json.asList? PublicKey.ofJson?) keys, ← Json.given? Hex.ofJson? tail⟩

end PublicKeys

/-! ### Forbidden versions -/

/-- **The versions that must not be flashed.** -/
structure ForbiddenVersions where
  /-- The number of versions, in its lowest byte. -/
  count : UInt32
  versions : List Version
  padding : Bytes
  deriving DecidableEq

namespace ForbiddenVersions

/-- The number of versions that a count dword stands for. -/
def versionCount (count : UInt32) : Nat := (bits count 7 0).toNat

/-- The number of bytes up to the end of a number of versions. -/
def size (versions : Nat) : Nat := 4 + versions * Version.size

def decode (d : Bytes) : Except DecodeError ForbiddenVersions := do
  needBytes d 4
  let n := versionCount (d.u32At 0)
  needBytes d (size n)
  return ⟨d.u32At 0, Version.decodeAll d 4 n, d.drop (size n)⟩

def encode (f : ForbiddenVersions) : Bytes :=
  Bytes.u32 f.count ++ Version.encodeAll f.versions ++ f.padding

/-- The versions as text, on one line. -/
def text (f : ForbiddenVersions) : String := s!"  Forbidden: {Version.textAll f.versions}"

def toJson (f : ForbiddenVersions) : Json :=
  .record [("count", .nat f.count.toNat), ("versions", .list Version.toJson f.versions),
    ("padding", Hex.toJson f.padding)]

def ofJson? (j : Json) : Option ForbiddenVersions := do
  let [count, versions, padding] ← j.fields? ["count", "versions", "padding"] | none
  return ⟨← Json.given? Json.asU32? count, ← Json.given? (Json.asList? Version.ofJson?) versions,
    ← Json.given? Hex.ofJson? padding⟩

end ForbiddenVersions

end FlashImage
