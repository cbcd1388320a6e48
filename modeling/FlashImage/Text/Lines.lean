/-!
# Lines and blanks

Configuration and descriptions of gaps are read line by line. A line ends with a line feed, and a
carriage return right in front of it belongs to the end as well; the last line need not have an end.

Blanks around a word are all characters with the Unicode property `White_Space`.

## Parts

* `Text.lines` — the lines of a text;
* `Text.trimChars` — characters without the blanks around them.
-/

namespace FlashImage.Text

/-- A line in reverse, without a carriage return at its end. -/
def dropReturn : List Char → List Char
  | '\r' :: done => done
  | done => done

/-- **Lines of characters**, where `done` is what the current line has so far, in reverse. -/
def linesFrom (done : List Char) : List Char → List (List Char)
  | [] => if done.isEmpty then [] else [done.reverse]
  | '\n' :: rest => (dropReturn done).reverse :: linesFrom [] rest
  | c :: rest => linesFrom (c :: done) rest

/-- The lines of a text, without their ends. -/
def lines (s : String) : List String := (linesFrom [] s.toList).map String.ofList

/-- **Blanks**: the characters with the Unicode property `White_Space`. -/
def isBlank (c : Char) : Bool :=
  let n := c.toNat
  (0x09 ≤ n && n ≤ 0x0d) || n = 0x20 || n = 0x85 || n = 0xa0 || n = 0x1680
    || (0x2000 ≤ n && n ≤ 0x200a) || n = 0x2028 || n = 0x2029 || n = 0x202f || n = 0x205f
    || n = 0x3000

/-- **Characters without the blanks on either side.** -/
def trimChars (cs : List Char) : List Char :=
  ((cs.dropWhile isBlank).reverse.dropWhile isBlank).reverse

end FlashImage.Text
