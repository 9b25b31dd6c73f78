/-
  This file defines how numbers are written: in base 8, 10
  and 16, padded to a width, and as decimals with a fixed
  number of places.

  Key definitions include:
    * `Numeral.padded`
    * `Numeral.hex`
    * `Numeral.octal`
    * `Numeral.roundHalfEven`
    * `Numeral.fixed`
-/

------------------------------------------------------------
-- Digits
------------------------------------------------------------

namespace SplitStream

namespace Numeral

/- Fill a text up to `width` characters on its left. -/
def padded
    (fill : Char)
    (width : Nat)
    (text : String) : String :=
  String.ofList
      (List.replicate (width - text.length) fill) ++ text

/- A number in a base of at most 16, at least `width` digits. -/
def inBase
    (base width n : Nat) : String :=
  padded '0' width (String.ofList (Nat.toDigits base n))

/- Hexadecimal digits without a mark, at least `width` of them. -/
def hexDigits
    (width n : Nat) : String :=
  inBase 16 width n

/- Hexadecimal with the mark `0x`, at least `width` digits. -/
def hex
    (width n : Nat) : String :=
  "0x" ++ hexDigits width n

/- Octal digits. -/
def octal
    (n : Nat) : String :=
  inBase 8 0 n

------------------------------------------------------------
-- Fixed Places
------------------------------------------------------------

/-
  The whole number nearest to `num / den`.  A tie goes to
  the even neighbour.
-/
def roundHalfEven
    (num den : Nat) : Nat :=
  let whole := num / den
  let rest := num % den
  if den < 2 * rest ∨ (2 * rest = den ∧ whole % 2 = 1) then
    whole + 1
  else
    whole

/- The fraction `num / den` as a decimal with `places` places. -/
def fixed
    (places num den : Nat) : String :=
  let unit := Nat.pow 10 places
  let scaled := roundHalfEven (num * unit) den
  toString (scaled / unit) ++ "." ++
    inBase 10 places (scaled % unit)

end Numeral

end SplitStream
