import FlashImage.Json.Basic

/-!
# Reading JSON

`Json.parse?` accepts one value with blanks around it and nothing else. The reader keeps the arrays
and objects it is inside of on a list of frames, so that its own depth does not depend on how deeply
a text is nested. It takes turns between two states: a value is expected, or a value is finished and
goes to the innermost frame. Every turn but the last takes at least one byte away, which is why a
turn per byte and two more are always enough.

## Parts

* string literals, with their escapes;
* number literals;
* frames, and the reader that takes turns.
-/

namespace FlashImage.Json

/-! ### Strings -/

/-- The number written by four hexadecimal digits. -/
def hex4? (a b c d : UInt8) : Option Nat := do
  return (((← hexValue? a) * 16 + (← hexValue? b)) * 16 + (← hexValue? c)) * 16 + (← hexValue? d)

/-- The UTF-8 form of a code point, and its generalisation to surrogates. -/
def codePointBytes (n : Nat) : Bytes :=
  if n < 0x80 then [UInt8.ofNat n]
  else if n < 0x800 then [UInt8.ofNat (0xc0 + n / 64), UInt8.ofNat (0x80 + n % 64)]
  else if n < 0x10000 then
    [UInt8.ofNat (0xe0 + n / 4096), UInt8.ofNat (0x80 + n / 64 % 64), UInt8.ofNat (0x80 + n % 64)]
  else
    [UInt8.ofNat (0xf0 + n / 262144), UInt8.ofNat (0x80 + n / 4096 % 64),
      UInt8.ofNat (0x80 + n / 64 % 64), UInt8.ofNat (0x80 + n % 64)]

/-- The byte that a short escape stands for. -/
def shortEscape? (b : UInt8) : Option UInt8 :=
  if b = 0x22 || b = 0x5c || b = 0x2f then some b
  else if b = 0x62 then some 0x08
  else if b = 0x66 then some 0x0c
  else if b = 0x6e then some 0x0a
  else if b = 0x72 then some 0x0d
  else if b = 0x74 then some 0x09
  else none

/-- Whether a code unit is the first of a surrogate pair. -/
def isHighSurrogate (n : Nat) : Bool := 0xd800 ≤ n && n < 0xdc00

/-- Whether a code unit is the second of a surrogate pair. -/
def isLowSurrogate (n : Nat) : Bool := 0xdc00 ≤ n && n < 0xe000

/-- The code point of a surrogate pair. -/
def pairValue (high low : Nat) : Nat := 0x10000 + (high - 0xd800) * 1024 + (low - 0xdc00)

/-- The code unit of a numbered escape at the front, and what follows it. -/
def numberedEscape? : Bytes → Option (Nat × Bytes)
  | 0x5c :: 0x75 :: a :: b :: c :: d :: rest => (hex4? a b c d).map (·, rest)
  | _ => none

/-- **A numbered escape**, starting at its digits: the bytes it stands for, and what follows it. The
two escapes of a surrogate pair stand for one code point. -/
def readNumberedEscape? : Bytes → Option (Bytes × Bytes)
  | a :: b :: c :: d :: rest => do
    let unit ← hex4? a b c d
    if isHighSurrogate unit then
      match numberedEscape? rest with
      | some (low, rest2) =>
        if isLowSurrogate low then some (codePointBytes (pairValue unit low), rest2)
        else some (codePointBytes unit, rest)
      | none => some (codePointBytes unit, rest)
    else some (codePointBytes unit, rest)
  | _ => none

/-- **The rest of a string literal** after its opening quote: its contents, of which `done` is what
has been read so far in reverse, and what follows the closing quote. -/
def readString (fuel : Nat) (done : Bytes) (bs : Bytes) : Option (Bytes × Bytes) :=
  match fuel, bs with
  | _, [] => none
  | 0, _ => none
  | fuel + 1, b :: rest =>
    if b = 0x22 then some (done.reverse, rest)
    else if b = 0x5c then
      match rest with
      | [] => none
      | e :: rest2 =>
        if e = 0x75 then
          match readNumberedEscape? rest2 with
          | none => none
          | some (contents, rest3) => readString fuel (contents.reverse ++ done) rest3
        else
          match shortEscape? e with
          | none => none
          | some c => readString fuel (c :: done) rest2
    else if b < 0x20 then none
    else readString fuel (b :: done) rest

/-! ### Numbers -/

/-- Digits at the front, at least one, and what follows them. -/
def digits? (bs : Bytes) : Option (Bytes × Bytes) :=
  match bs.span isDigit with
  | ([], _) => none
  | (ds, rest) => some (ds, rest)

/-- The integer part of a number: a zero alone, or digits that do not start with one. -/
def integerPart? (bs : Bytes) : Option (Bytes × Bytes) :=
  match bs with
  | 0x30 :: rest => some ([0x30], rest)
  | _ => digits? bs

/-- The fraction of a number, if there is one: a point and digits. -/
def fractionPart? (bs : Bytes) : Option (Bytes × Bytes) :=
  match bs with
  | 0x2e :: rest => (digits? rest).map fun (ds, rest2) => (0x2e :: ds, rest2)
  | _ => some ([], bs)

/-- The exponent of a number, if there is one: a letter, perhaps a sign, and digits. -/
def exponentPart? (bs : Bytes) : Option (Bytes × Bytes) :=
  match bs with
  | e :: s :: rest =>
    if e = 0x65 || e = 0x45 then
      if s = 0x2b || s = 0x2d then
        (digits? rest).map fun (ds, rest2) => (e :: s :: ds, rest2)
      else (digits? (s :: rest)).map fun (ds, rest2) => (e :: ds, rest2)
    else some ([], bs)
  | e :: [] => if e = 0x65 || e = 0x45 then none else some ([], bs)
  | [] => some ([], bs)

/-- A number without its sign. -/
def magnitude? (bs : Bytes) : Option (Bytes × Bytes) := do
  let (whole, rest) ← integerPart? bs
  let (fraction, rest) ← fractionPart? rest
  let (exponent, rest) ← exponentPart? rest
  return (whole ++ fraction ++ exponent, rest)

/-- **A number literal** at the front, and what follows it. -/
def readNumber? (bs : Bytes) : Option (Bytes × Bytes) :=
  match bs with
  | 0x2d :: rest => (magnitude? rest).map fun (literal, rest2) => (0x2d :: literal, rest2)
  | _ => magnitude? bs

/-! ### Values -/

/-- **Where a value stands**: in an array after other items, or in an object after other members and
its own key. What came before is kept in reverse. -/
inductive Frame where
  | item (before : List Json)
  | member (before : List (Bytes × Json)) (key : Bytes)

/-- The word at the front, if it is this one. -/
def word? (word : Bytes) (bs : Bytes) : Option Bytes :=
  if word.isPrefixOf bs then some (bs.drop word.length) else none

/-- The key of a member, starting at its quote, and what follows the colon. -/
def readKey? (fuel : Nat) (bs : Bytes) : Option (Bytes × Bytes) :=
  match bs with
  | 0x22 :: rest =>
    match readString fuel [] rest with
    | none => none
    | some (key, rest2) =>
      match skipBlanks rest2 with
      | 0x3a :: rest3 => some (key, rest3)
      | _ => none
  | _ => none

/-- A value without parts: a word, a string or a number. -/
def readScalar? (fuel : Nat) (bs : Bytes) : Option (Json × Bytes) :=
  match bs with
  | 0x22 :: rest => (readString fuel [] rest).map fun (contents, rest2) => (str contents, rest2)
  | 0x6e :: _ => (word? (Bytes.ofString "null") bs).map fun rest => (null, rest)
  | 0x74 :: _ => (word? (Bytes.ofString "true") bs).map fun rest => (bool true, rest)
  | 0x66 :: _ => (word? (Bytes.ofString "false") bs).map fun rest => (bool false, rest)
  | _ => (readNumber? bs).map fun (literal, rest) => (num literal, rest)

/-- **The reader.** With `finished = none` a value is expected; otherwise that value is finished and
goes to the innermost frame, or outside of all frames is the result together with what follows it. -/
def read (fuel : Nat) (finished : Option Json) (frames : List Frame) (bs : Bytes) :
    Option (Json × Bytes) :=
  match fuel, finished, frames with
  | 0, _, _ => none
  -- A value is expected: open a frame, or read a value without parts.
  | fuel + 1, none, frames =>
    match skipBlanks bs with
    | 0x5b :: rest =>
      match skipBlanks rest with
      | 0x5d :: rest2 => read fuel (some (arr [])) frames rest2
      | rest2 => read fuel none (.item [] :: frames) rest2
    | 0x7b :: rest =>
      match skipBlanks rest with
      | 0x7d :: rest2 => read fuel (some (obj [])) frames rest2
      | rest2 =>
        match readKey? fuel rest2 with
        | none => none
        | some (key, rest3) => read fuel none (.member [] key :: frames) rest3
    | rest =>
      match readScalar? fuel rest with
      | none => none
      | some (value, rest2) => read fuel (some value) frames rest2
  -- A value is finished outside of all frames: it is the result.
  | _ + 1, some value, [] => some (value, bs)
  -- A value is finished inside of a frame: go on behind it, or close the frame.
  | fuel + 1, some value, .item before :: frames =>
    match skipBlanks bs with
    | 0x2c :: rest => read fuel none (.item (value :: before) :: frames) rest
    | 0x5d :: rest => read fuel (some (arr (value :: before).reverse)) frames rest
    | _ => none
  | fuel + 1, some value, .member before key :: frames =>
    match skipBlanks bs with
    | 0x2c :: rest =>
      match readKey? fuel (skipBlanks rest) with
      | none => none
      | some (key2, rest2) => read fuel none (.member ((key, value) :: before) key2 :: frames) rest2
    | 0x7d :: rest => read fuel (some (obj ((key, value) :: before).reverse)) frames rest
    | _ => none

/-- **The value a text holds**, if it holds exactly one and nothing but blanks around it. -/
def parse? (bs : Bytes) : Option Json :=
  match read (bs.length + 2) none [] bs with
  | some (value, rest) => if (skipBlanks rest).isEmpty then some value else none
  | none => none

end FlashImage.Json
