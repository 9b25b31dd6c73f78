/-
  This file defines how whole numbers are read.  A sign may
  stand before the digits, and a number has a greatest and a
  least value.

  Key definitions include:
    * `Digits.number?`
    * `Digits.natural?`
    * `Digits.integer?`
-/

------------------------------------------------------------
-- Digits
------------------------------------------------------------

namespace SplitStream

namespace Digits

/- The number that decimal digits add to `value`. -/
def numberFrom?
    (value : Nat) : List Char → Option Nat
  | [] => some value
  | c :: cs =>
      if '0' ≤ c ∧ c ≤ '9' then
        numberFrom? (value * 10 + (c.toNat - '0'.toNat)) cs
      else
        none

/- The number of one or more decimal digits. -/
def number? : List Char → Option Nat
  | [] => none
  | cs => numberFrom? 0 cs

------------------------------------------------------------
-- Signs
------------------------------------------------------------

/- A whole number of at most `greatest`, maybe with a plus. -/
def natural?
    (greatest : Nat)
    (text : String) : Option Nat := do
  let n ←
    match text.toList with
    | '+' :: cs => number? cs
    | cs => number? cs
  if n ≤ greatest then
    some n
  else
    none

/- A number from `least` to `greatest`, maybe with a sign. -/
def integer?
    (least greatest : Int)
    (text : String) : Option Int := do
  let n ←
    match text.toList with
    | '+' :: cs => Int.ofNat <$> number? cs
    | '-' :: cs => (fun n => -Int.ofNat n) <$> number? cs
    | cs => Int.ofNat <$> number? cs
  if least ≤ n ∧ n ≤ greatest then
    some n
  else
    none

end Digits

end SplitStream
