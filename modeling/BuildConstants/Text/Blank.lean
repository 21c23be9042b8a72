/-!
# Blank characters

The characters with the Unicode property `White_Space`, and trimming by them. The set is wider than
`Char.isWhitespace`: it also has the vertical tab, the form feed, the next-line control and the
blanks outside ASCII. It has neither the zero-width space nor the byte order mark.
-/

namespace BuildConstants.Text

/-- The inclusive ranges of code points with the property `White_Space`, in increasing order. -/
def blankRanges : List (Nat × Nat) :=
  [(0x9, 0xD), (0x20, 0x20), (0x85, 0x85), (0xA0, 0xA0), (0x1680, 0x1680), (0x2000, 0x200A),
    (0x2028, 0x2029), (0x202F, 0x202F), (0x205F, 0x205F), (0x3000, 0x3000)]

/-- A character is blank when one of the ranges holds its code point. -/
def isBlank (c : Char) : Bool :=
  blankRanges.any fun (low, high) => low ≤ c.toNat && c.toNat ≤ high

/-- Drops the blanks at the end. -/
def trimRight (cs : List Char) : List Char :=
  (cs.reverse.dropWhile isBlank).reverse

/-- Drops the blanks at both ends. -/
def trimChars (cs : List Char) : List Char :=
  trimRight (cs.dropWhile isBlank)

/-- Drops the blanks at both ends. -/
def trim (s : String) : String :=
  String.ofList (trimChars s.toList)

end BuildConstants.Text
