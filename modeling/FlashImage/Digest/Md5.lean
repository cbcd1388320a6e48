import FlashImage.Bytes.BigEndian

/-!
# The 128-bit fingerprint of a key

Reports name a public key by the MD5 hash of its bytes. As in all hashes of that family the input is
padded to whole blocks of 64 bytes, and each block is mixed into a state of dwords, here four, by
sixty-four rounds. Dwords are stored least significant byte first.
-/

namespace FlashImage.Md5

/-- The round constants: the absolute sines of 1 to 64, scaled to 32 bits. -/
def roundConstants : List UInt32 :=
  [0xd76aa478, 0xe8c7b756, 0x242070db, 0xc1bdceee, 0xf57c0faf, 0x4787c62a, 0xa8304613, 0xfd469501,
   0x698098d8, 0x8b44f7af, 0xffff5bb1, 0x895cd7be, 0x6b901122, 0xfd987193, 0xa679438e, 0x49b40821,
   0xf61e2562, 0xc040b340, 0x265e5a51, 0xe9b6c7aa, 0xd62f105d, 0x02441453, 0xd8a1e681, 0xe7d3fbc8,
   0x21e1cde6, 0xc33707d6, 0xf4d50d87, 0x455a14ed, 0xa9e3e905, 0xfcefa3f8, 0x676f02d9, 0x8d2a4c8a,
   0xfffa3942, 0x8771f681, 0x6d9d6122, 0xfde5380c, 0xa4beea44, 0x4bdecfa9, 0xf6bb4b60, 0xbebfbc70,
   0x289b7ec6, 0xeaa127fa, 0xd4ef3085, 0x04881d05, 0xd9d4d039, 0xe6db99e5, 0x1fa27cf8, 0xc4ac5665,
   0xf4292244, 0x432aff97, 0xab9423a7, 0xfc93a039, 0x655b59c3, 0x8f0ccc92, 0xffeff47d, 0x85845dd1,
   0x6fa87e4f, 0xfe2ce6e0, 0xa3014314, 0x4e0811a1, 0xf7537e82, 0xbd3af235, 0x2ad7d2bb, 0xeb86d391]

/-- **The state** that blocks are mixed into. -/
structure State where
  a : UInt32
  b : UInt32
  c : UInt32
  d : UInt32

/-- The state before the first block. -/
def State.initial : State := ⟨0x67452301, 0xefcdab89, 0x98badcfe, 0x10325476⟩

/-- The four bytes of a dword, least significant first. -/
def littleEndian (x : UInt32) : Bytes := (Bytes.u32 x).reverse

/-- The dwords of a block. -/
def words : Bytes → List UInt32
  | a :: b :: c :: d :: rest => UInt32.ofNat (Bytes.toNat [d, c, b, a]) :: words rest
  | _ => []

/-- A dword rotated to the left by `n` bits, for `n` from 1 to 31. -/
def rotate (x : UInt32) (n : UInt32) : UInt32 := (x <<< n) ||| (x >>> (32 - n))

/-- The rotation of round `i`. -/
def rotation (i : Nat) : UInt32 :=
  let row : List UInt32 := match i / 16 with
    | 0 => [7, 12, 17, 22]
    | 1 => [5, 9, 14, 20]
    | 2 => [4, 11, 16, 23]
    | _ => [6, 10, 15, 21]
  row.getD (i % 4) 0

/-- The dword of the block that round `i` takes. -/
def wordIndex (i : Nat) : Nat :=
  match i / 16 with
  | 0 => i % 16
  | 1 => (5 * i + 1) % 16
  | 2 => (3 * i + 5) % 16
  | _ => (7 * i) % 16

/-- The mixing function of round `i`. -/
def mixer (i : Nat) (s : State) : UInt32 :=
  match i / 16 with
  | 0 => (s.b &&& s.c) ||| (~~~s.b &&& s.d)
  | 1 => (s.d &&& s.b) ||| (~~~s.d &&& s.c)
  | 2 => s.b ^^^ s.c ^^^ s.d
  | _ => s.c ^^^ (s.b ||| ~~~s.d)

/-- Round `i` over a block, with its constant. -/
def round (block : Array UInt32) (s : State) (step : UInt32 × Nat) : State :=
  let (k, i) := step
  let sum := s.a + mixer i s + k + block.getD (wordIndex i) 0
  ⟨s.d, s.b + rotate sum (rotation i), s.b, s.c⟩

/-- A state with one block mixed in. -/
def mix (s : State) (block : Bytes) : State :=
  let t := roundConstants.zipIdx.foldl (round (words block).toArray) s
  ⟨s.a + t.a, s.b + t.b, s.c + t.c, s.d + t.d⟩

/-- A state with `count` blocks mixed in. -/
def mixAll (s : State) (data : Bytes) : (count : Nat) → State
  | 0 => s
  | count + 1 => mixAll (mix s (data.take 64)) (data.drop 64) count

/-- The input with a single set bit, zeros, and its own length in bits behind it. -/
def padded (data : Bytes) : Bytes :=
  data ++ (0x80 :: List.replicate ((119 - data.length % 64) % 64) 0)
    ++ (Bytes.ofNat 8 (data.length * 8)).reverse

/-- **The digest** of a byte string. -/
def digest (data : Bytes) : Bytes :=
  let input := padded data
  let s := mixAll State.initial input (input.length / 64)
  [s.a, s.b, s.c, s.d].flatMap littleEndian

end FlashImage.Md5
