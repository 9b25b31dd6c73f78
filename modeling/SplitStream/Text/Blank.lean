/-
  This file defines blank characters, the characters with
  the Unicode property White_Space, and the removal of
  blanks around a text.

  Key definitions include:
    * `Text.isBlank`
    * `Text.trimBlanks`
-/

------------------------------------------------------------
-- Blanks
------------------------------------------------------------

namespace SplitStream

namespace Text

/- The first and last code points of each run of blanks. -/
def blankRanges : List (Nat × Nat) :=
  [ (0x0009, 0x000D), (0x0020, 0x0020), (0x0085, 0x0085),
    (0x00A0, 0x00A0), (0x1680, 0x1680), (0x2000, 0x200A),
    (0x2028, 0x2029), (0x202F, 0x202F), (0x205F, 0x205F),
    (0x3000, 0x3000) ]

/- A character is blank if it has the property White_Space. -/
def isBlank
    (c : Char) : Bool :=
  blankRanges.any fun (first, last) =>
    first ≤ c.toNat && c.toNat ≤ last

/- A text without the blanks at its two ends. -/
def trimBlanks
    (text : List Char) : List Char :=
  ((text.dropWhile isBlank).reverse.dropWhile isBlank).reverse

end Text

end SplitStream
