import FlashImage.Inflate.Source

/-!
# Algorithms from outside

Three algorithms that images rely on have nothing to do with images: the digest by which an image is
recognised, and the two ways to expand compressed contents. They are taken as given, so that whatever
is said about images holds for any functions in their place.
-/

namespace FlashImage

/-- **The algorithms that images rely on.** -/
class Algorithms where
  /-- The digest of a byte string. -/
  digest : Bytes → Bytes
  /-- The contents of a stream with a header and a checksum. -/
  zlib : Bytes → Except InflateError Bytes
  /-- The contents of a bare stream. -/
  deflate : Bytes → Except InflateError Bytes

end FlashImage
