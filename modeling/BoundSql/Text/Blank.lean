/-!
# Blank characters

Two sets: the Unicode property `White_Space`, and the slightly larger set that also counts the four
information separators (U+001C to U+001F) as blank. Trimming is relative to either.
-/

namespace BoundSql.Text

/-- The Unicode property `White_Space`. -/
def isWhiteSpace (c : Char) : Bool :=
  let n := c.toNat
  (9 ≤ n && n ≤ 13) || n == 0x20 || n == 0x85 || n == 0xa0 || n == 0x1680 ||
    (0x2000 ≤ n && n ≤ 0x200a) || n == 0x2028 || n == 0x2029 || n == 0x202f || n == 0x205f ||
    n == 0x3000

/-- White space or an information separator. -/
def isBlank (c : Char) : Bool :=
  isWhiteSpace c || (0x1c ≤ c.toNat && c.toNat ≤ 0x1f)

/-- Whether a text holds nothing but blanks; so does the empty text. -/
def isBlankText (s : String) : Bool := s.toList.all isBlank

/-- Removes the characters of a class from both ends. -/
def trim (p : Char → Bool) (cs : List Char) : List Char :=
  ((cs.dropWhile p).reverse.dropWhile p).reverse

end BoundSql.Text
