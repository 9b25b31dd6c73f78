import SplitStream.Text.Extending
import SplitStream.Text.Numeral
import SplitStream.Text.Unprintable

/-
  This file defines quoted texts, the form in which names
  stand in messages: quotes around the text, and escapes for
  the characters that would not be seen.

  Key definitions include:
    * `Text.escape`
    * `Text.quote`
    * `Text.quotePath`
-/

------------------------------------------------------------
-- Escapes
------------------------------------------------------------

namespace SplitStream

namespace Text

/- A code point lies in one of the given runs. -/
def inRanges
    (ranges : List (Nat × Nat))
    (c : Char) : Bool :=
  ranges.any fun (first, last) =>
    first ≤ c.toNat && c.toNat ≤ last

/- A character that is seen, and stands for itself. -/
def isPlain
    (c : Char) : Bool :=
  if c.toNat < 0x7F then
    0x20 ≤ c.toNat
  else
    0x7F < c.toNat &&
      !inRanges extendingRanges c &&
      !inRanges unprintableRanges c

/- An escape that gives the code point in hexadecimal. -/
def escapeCodePoint
    (c : Char) : String :=
  "\\u\x7b" ++ Numeral.hexDigits 0 c.toNat ++ "\x7d"

/-
  The form of a character between quotes.  The quotes named
  in `marks` are escaped.
-/
def escape
    (marks : List Char)
    (c : Char) : String :=
  if c = '\x00' then "\\0"
  else if c = '\t' then "\\t"
  else if c = '\r' then "\\r"
  else if c = '\n' then "\\n"
  else if c = '\\' ∨ c ∈ marks then
    String.ofList ['\\', c]
  else if isPlain c then
    String.ofList [c]
  else
    escapeCodePoint c

------------------------------------------------------------
-- Quotes
------------------------------------------------------------

/- A text between quotes, the given quotes escaped. -/
def quoteWith
    (marks : List Char)
    (text : String) : String :=
  "\"" ++ String.join (text.toList.map (escape marks)) ++ "\""

/- A text between quotes. -/
def quote
    (text : String) : String :=
  quoteWith ['"'] text

/-
  A path between quotes.  In a path single quotes are
  escaped as well.
-/
def quotePath
    (path : String) : String :=
  quoteWith ['"', '\''] path

end Text

end SplitStream
