import SplitStream.Text.Numeral

/-
  This file defines fractions whose numerator has at most 53
  significant bits, the form in which sizes and ratios are
  rounded before they are printed.

  Key definitions include:
    * `Significand`
    * `Significand.ofFraction`
    * `Significand.divide`
    * `Significand.fixed`
-/

------------------------------------------------------------
-- Rounded Fractions
------------------------------------------------------------

namespace SplitStream

/- A fraction `num / den` with a positive denominator. -/
structure Significand where
  num : Nat
  den : Nat

namespace Significand

/- The number of significant bits that are kept. -/
def precision : Nat :=
  53

/- The fraction `num / (den * 2 ^ e)`. -/
def scaled
    (num den : Nat)
    (e : Int) : Significand :=
  if 0 ≤ e then
    ⟨num, den <<< e.toNat⟩
  else
    ⟨num <<< (-e).toNat, den⟩

/-
  The fraction of 53 significant bits nearest to
  `num / den`.  A tie goes to the even numerator.
-/
def ofFraction
    (num den : Nat) : Significand :=
  if num = 0 then
    ⟨0, 1⟩
  else
    let guess : Int := Nat.log2 num - Nat.log2 den - 52
    let trial := scaled num den guess
    let e :=
      if trial.num < trial.den <<< (precision - 1) then
        guess - 1
      else
        guess
    let exact := scaled num den e
    scaled (Numeral.roundHalfEven exact.num exact.den) 1 (-e)

/- A whole number. -/
def ofNat
    (n : Nat) : Significand :=
  ofFraction n 1

/- The rounded quotient of two fractions. -/
def divide
    (a b : Significand) : Significand :=
  ofFraction (a.num * b.den) (a.den * b.num)

/- A fraction as a decimal with `places` places. -/
def fixed
    (places : Nat)
    (a : Significand) : String :=
  Numeral.fixed places a.num a.den

end Significand

end SplitStream
