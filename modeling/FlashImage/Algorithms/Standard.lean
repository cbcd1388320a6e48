import FlashImage.Algorithms
import FlashImage.Digest.Sha256
import FlashImage.Inflate.Deflate

/-!
# The algorithms in use

Images are recognised by their SHA-256 hash, and their compressed contents are deflate streams.
-/

namespace FlashImage

/-- **The algorithms of flash images.** -/
instance Algorithms.standard : Algorithms where
  digest := Sha256.digest
  zlib := Inflate.zlib
  deflate := Inflate.deflate

end FlashImage
