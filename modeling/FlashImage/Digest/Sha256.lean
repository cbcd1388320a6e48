import FlashImage.Bytes.BigEndian

/-!
# The 256-bit digest of an image

`Sha256.digest` is the SHA-256 hash: the input is padded to whole blocks of 64 bytes, and each block
is mixed into a state of eight dwords by sixty-four rounds over a schedule of sixty-four dwords.
-/

namespace FlashImage.Sha256

/-- The round constants: the fractional parts of the cube roots of the first 64 primes. -/
def roundConstants : List UInt32 :=
  [0x428a2f98, 0x71374491, 0xb5c0fbcf, 0xe9b5dba5, 0x3956c25b, 0x59f111f1, 0x923f82a4, 0xab1c5ed5,
   0xd807aa98, 0x12835b01, 0x243185be, 0x550c7dc3, 0x72be5d74, 0x80deb1fe, 0x9bdc06a7, 0xc19bf174,
   0xe49b69c1, 0xefbe4786, 0x0fc19dc6, 0x240ca1cc, 0x2de92c6f, 0x4a7484aa, 0x5cb0a9dc, 0x76f988da,
   0x983e5152, 0xa831c66d, 0xb00327c8, 0xbf597fc7, 0xc6e00bf3, 0xd5a79147, 0x06ca6351, 0x14292967,
   0x27b70a85, 0x2e1b2138, 0x4d2c6dfc, 0x53380d13, 0x650a7354, 0x766a0abb, 0x81c2c92e, 0x92722c85,
   0xa2bfe8a1, 0xa81a664b, 0xc24b8b70, 0xc76c51a3, 0xd192e819, 0xd6990624, 0xf40e3585, 0x106aa070,
   0x19a4c116, 0x1e376c08, 0x2748774c, 0x34b0bcb5, 0x391c0cb3, 0x4ed8aa4a, 0x5b9cca4f, 0x682e6ff3,
   0x748f82ee, 0x78a5636f, 0x84c87814, 0x8cc70208, 0x90befffa, 0xa4506ceb, 0xbef9a3f7, 0xc67178f2]

/-- **The state** that blocks are mixed into. -/
structure State where
  a : UInt32
  b : UInt32
  c : UInt32
  d : UInt32
  e : UInt32
  f : UInt32
  g : UInt32
  h : UInt32

namespace State

/-- The fractional parts of the square roots of the first eight primes. -/
def initial : State :=
  ⟨0x6a09e667, 0xbb67ae85, 0x3c6ef372, 0xa54ff53a, 0x510e527f, 0x9b05688c, 0x1f83d9ab, 0x5be0cd19⟩

/-- The sum of two states, dword by dword. -/
def add (s t : State) : State :=
  ⟨s.a + t.a, s.b + t.b, s.c + t.c, s.d + t.d, s.e + t.e, s.f + t.f, s.g + t.g, s.h + t.h⟩

/-- The digest a state stands for. -/
def bytes (s : State) : Bytes := Bytes.ofDwords [s.a, s.b, s.c, s.d, s.e, s.f, s.g, s.h]

end State

/-- A dword rotated to the right by `n` bits, for `n` from 1 to 31. -/
def rotate (x : UInt32) (n : UInt32) : UInt32 := (x >>> n) ||| (x <<< (32 - n))

/-- One more dword of the schedule, from the sixteen before it. -/
def nextWord (words : Array UInt32) : UInt32 :=
  let back (n : Nat) : UInt32 := words.getD (words.size - n) 0
  let x := back 15
  let y := back 2
  (rotate y 17 ^^^ rotate y 19 ^^^ (y >>> 10)) + back 7
    + (rotate x 7 ^^^ rotate x 18 ^^^ (x >>> 3)) + back 16

/-- The schedule of a block: its own sixteen dwords, and forty-eight more. -/
def schedule (block : Bytes) : List UInt32 :=
  (Nat.repeat (fun words => words.push (nextWord words)) 48 (Bytes.toDwords block).toArray).toList

/-- One round, with the sum of the round constant and the schedule's dword. -/
def round (s : State) (kw : UInt32) : State :=
  let t1 := s.h + (rotate s.e 6 ^^^ rotate s.e 11 ^^^ rotate s.e 25)
    + ((s.e &&& s.f) ^^^ (~~~s.e &&& s.g)) + kw
  let t2 := (rotate s.a 2 ^^^ rotate s.a 13 ^^^ rotate s.a 22)
    + ((s.a &&& s.b) ^^^ (s.a &&& s.c) ^^^ (s.b &&& s.c))
  ⟨t1 + t2, s.a, s.b, s.c, s.d + t1, s.e, s.f, s.g⟩

/-- A state with one block mixed in. -/
def mix (s : State) (block : Bytes) : State :=
  s.add ((List.zipWith (· + ·) roundConstants (schedule block)).foldl round s)

/-- A state with `count` blocks mixed in. -/
def mixAll (s : State) (data : Bytes) : (count : Nat) → State
  | 0 => s
  | count + 1 => mixAll (mix s (data.take 64)) (data.drop 64) count

/-- The input with a single set bit, zeros, and its own length in bits behind it. -/
def padded (data : Bytes) : Bytes :=
  data ++ (0x80 :: List.replicate ((119 - data.length % 64) % 64) 0)
    ++ Bytes.ofNat 8 (data.length * 8)

/-- **The digest** of a byte string. -/
def digest (data : Bytes) : Bytes :=
  let input := padded data
  (mixAll State.initial input (input.length / 64)).bytes

end FlashImage.Sha256
