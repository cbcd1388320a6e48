import FlashImage.Inflate.Code

/-!
# Expanding a deflate stream

A stream is a row of blocks, the last of which is marked. A block holds bytes as they are, or symbols
in two prefix codes: a literal byte, the end of the block, or a *match*, which repeats output from
some distance back. The codes are fixed, or come with the block.

What a match refers to before the start of the output reads as zero bytes: the window that matches
look into starts out that way.
-/

namespace FlashImage.Inflate

/-! ### Codes -/

/-- The lengths of the fixed code for literals and matches. -/
def fixedLiteralLengths : List Nat :=
  List.replicate 144 8 ++ List.replicate 112 9 ++ List.replicate 24 7 ++ List.replicate 8 8

/-- The lengths of the fixed code for distances. -/
def fixedDistanceLengths : List Nat := List.replicate 32 5

/-- The order in which the lengths of the code for code lengths are stored. -/
def lengthOrder : List Nat := [16, 17, 18, 0, 8, 7, 9, 6, 10, 5, 11, 4, 12, 3, 13, 2, 14, 1, 15]

/-- The next `count` numbers of three bits. -/
def readTriples : (count : Nat) → Bits → Except InflateError (List Nat × Bits)
  | 0, bits => .ok ([], bits)
  | count + 1, bits => do
    let (n, bits) ← bits.number 3
    let (ns, bits) ← readTriples count bits
    return (n :: ns, bits)

/-- **Code lengths**, of which `done` holds those read so far in reverse and `count` are wanted. A
symbol stands for itself, repeats the length before it, or repeats zero; no repetition may go past
the end. A step adds at least one length, so `count` is enough fuel. -/
def readLengths (fuel : Nat) (code : Code) (count : Nat) (done : List Nat) (bits : Bits) :
    Except InflateError (List Nat × Bits) :=
  if done.length = count then .ok (done.reverse, bits)
  else if count < done.length then .error .corrupt
  else
    match fuel with
    | 0 => .error .corrupt
    | fuel + 1 =>
      match code.read bits with
      | .error e => .error e
      | .ok (s, bits) =>
        if s < 16 then readLengths fuel code count (s :: done) bits
        else
          -- extra bits, the fewest repetitions, and what is repeated
          let (extra, base, value) : Nat × Nat × Option Nat :=
            if s = 16 then (2, 3, done.head?) else if s = 17 then (3, 3, some 0) else (7, 11, some 0)
          match value with
          | none => .error .corrupt
          | some value =>
            match bits.number extra with
            | .error e => .error e
            | .ok (more, bits) =>
              readLengths fuel code count (List.replicate (base + more) value ++ done) bits

/-- The codes that come with a block: for literals and matches, and for distances. -/
def readCodes (bits : Bits) : Except InflateError ((Code × Code) × Bits) := do
  let (literals, bits) ← bits.number 5
  let (distances, bits) ← bits.number 5
  let (triples, bits) ← bits.number 4
  if 286 < literals + 257 || 30 < distances + 1 then throw .corrupt
  let (given, bits) ← readTriples (triples + 4) bits
  -- the lengths of the code in which the lengths of the two codes are written
  let table := lengthOrder.zip given
  let code ← Code.full? ((List.range 19).map fun s => (table.lookup s).getD 0)
  let count := literals + 257 + (distances + 1)
  let (lengths, bits) ← readLengths count code count [] bits
  let distanceCode ← Code.fullOrSparse? (lengths.drop (literals + 257))
  let literalCode ← Code.fullOrSparse? (lengths.take (literals + 257))
  return ((literalCode, distanceCode), bits)

/-! ### Matches -/

/-- The extra bits and the smallest length of each match symbol from 257 on. -/
def lengthTable : List (Nat × Nat) :=
  [(0, 3), (0, 4), (0, 5), (0, 6), (0, 7), (0, 8), (0, 9), (0, 10), (1, 11), (1, 13), (1, 15),
   (1, 17), (2, 19), (2, 23), (2, 27), (2, 31), (3, 35), (3, 43), (3, 51), (3, 59), (4, 67), (4, 83),
   (4, 99), (4, 115), (5, 131), (5, 163), (5, 195), (5, 227), (0, 258)]

/-- The extra bits and the smallest distance of each distance symbol. -/
def distanceTable : List (Nat × Nat) :=
  [(0, 1), (0, 2), (0, 3), (0, 4), (1, 5), (1, 7), (2, 9), (2, 13), (3, 17), (3, 25), (4, 33),
   (4, 49), (5, 65), (5, 97), (6, 129), (6, 193), (7, 257), (7, 385), (8, 513), (8, 769), (9, 1025),
   (9, 1537), (10, 2049), (10, 3073), (11, 4097), (11, 6145), (12, 8193), (12, 12289), (13, 16385),
   (13, 24577)]

/-- A number given by a symbol of a table and the extra bits behind it. -/
def readExtra (table : List (Nat × Nat)) (s : Nat) (bits : Bits) :
    Except InflateError (Nat × Bits) :=
  match table[s]? with
  | none => .error .corrupt
  | some (extra, base) => do
    let (more, bits) ← bits.number extra
    return (base + more, bits)

/-- The output with `count` bytes from `distance` back repeated, one after the other. -/
def repeatFrom (distance : Nat) : (count : Nat) → Array UInt8 → Array UInt8
  | 0, out => out
  | count + 1, out =>
    let b := if distance ≤ out.size then out.getD (out.size - distance) 0 else 0
    repeatFrom distance count (out.push b)

/-! ### Blocks -/

/-- **The symbols of a block**, up to and with its end. A step takes at least one bit. -/
def readSymbols (fuel : Nat) (codes : Code × Code) (out : Array UInt8) (bits : Bits) :
    Except InflateError (Array UInt8 × Bits) :=
  match fuel with
  | 0 => .error .incomplete
  | fuel + 1 =>
    match codes.1.read bits with
    | .error e => .error e
    | .ok (s, bits) =>
      if s < 256 then readSymbols fuel codes (out.push (UInt8.ofNat s)) bits
      else if s = 256 then .ok (out, bits)
      else
        match readExtra lengthTable (s - 257) bits with
        | .error e => .error e
        | .ok (length, bits) =>
          match codes.2.read bits with
          | .error e => .error e
          | .ok (d, bits) =>
            match readExtra distanceTable d bits with
            | .error e => .error e
            | .ok (distance, bits) => readSymbols fuel codes (repeatFrom distance length out) bits

/-- A block of bytes as they are: their number, its complement, and the bytes. -/
def readStored (out : Array UInt8) (bits : Bits) : Except InflateError (Array UInt8 × Bits) := do
  let (length, bits) ← bits.align.number 16
  let (complement, bits) ← bits.number 16
  if length + complement ≠ 0xffff then throw .corrupt
  let (bs, bits) ← bits.bytes length
  return (out ++ bs.toArray, bits)

/-- One block of the given kind. -/
def readBlock (fuel kind : Nat) (out : Array UInt8) (bits : Bits) :
    Except InflateError (Array UInt8 × Bits) :=
  match kind with
  | 0 => readStored out bits
  | 1 =>
    readSymbols fuel (Code.ofLengths fixedLiteralLengths, Code.ofLengths fixedDistanceLengths) out bits
  | 2 => do
    let (codes, bits) ← readCodes bits
    readSymbols fuel codes out bits
  | _ => .error .corrupt

/-- **The blocks of a stream**, up to and with the last one. A block takes at least three bits. -/
def readBlocks (fuel : Nat) (out : Array UInt8) (bits : Bits) :
    Except InflateError (Array UInt8 × Bits) :=
  match fuel with
  | 0 => .error .incomplete
  | fuel + 1 =>
    match bits.number 1 with
    | .error e => .error e
    | .ok (last, bits) =>
      match bits.number 2 with
      | .error e => .error e
      | .ok (kind, bits) =>
        match readBlock fuel kind out bits with
        | .error e => .error e
        | .ok (out, bits) => if last = 1 then .ok (out, bits) else readBlocks fuel out bits

/-- **Expanding a stream**: its output, and what is left of the input after it. -/
def stream (data : Bytes) : Except InflateError (Bytes × Bits) := do
  let (out, bits) ← readBlocks (8 * data.length + 2) #[] ⟨[], data⟩
  return (out.toList, bits)

/-- **The contents of a bare stream.** Bytes after its end are ignored. -/
def deflate (data : Bytes) : Except InflateError Bytes := do
  return (← stream data).1

/-! ### Streams with a header and a checksum -/

/-- Whether two bytes are the header of a stream that can be expanded: the method is deflate with a
window of at most 32 KiB, no dictionary is preset, and both bytes together are a multiple of 31. -/
def isHeader (method flags : UInt8) : Bool :=
  method.toNat % 16 = 8 && method.toNat / 16 ≤ 7 && !(flags.toNat.testBit 5)
    && (method.toNat * 256 + flags.toNat) % 31 = 0

/-- The checksum behind a stream: two sums modulo the largest prime of sixteen bits, of the bytes and
of the sums of all starts. -/
def checksum (data : Bytes) : Nat :=
  let (a, b) := data.foldl (fun (a, b) x =>
    let a := (a + x.toNat) % 65521
    (a, (b + a) % 65521)) (1, 0)
  b * 65536 + a

/-- **The contents of a stream with a header and a checksum.** Bytes after its end are ignored. -/
def zlib (data : Bytes) : Except InflateError Bytes :=
  match data with
  | method :: flags :: rest => do
    if !isHeader method flags then throw .corrupt
    let (out, bits) ← stream rest
    let (stored, _) ← bits.align.bytes 4
    if stored.toNat ≠ checksum out then throw .corrupt
    return out
  | _ => .error .incomplete

end FlashImage.Inflate
