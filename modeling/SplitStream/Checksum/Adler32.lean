import SplitStream.Bytes.Basic

/-
  This file defines the Adler-32 checksum: two sums modulo
  the largest prime below 2^16, the first over the bytes and
  the second over the values of the first.

  Key definitions include:
    * `Adler32`
    * `Adler32.push`
    * `Adler32.value`
-/

------------------------------------------------------------
-- Adler-32
------------------------------------------------------------

namespace SplitStream

/- The two sums of a checksum in progress. -/
structure Adler32 where
  low : Nat
  high : Nat

namespace Adler32

/- The modulus of both sums. -/
def modulus : Nat :=
  65521

/- The checksum in progress of no bytes. -/
def start : Adler32 where
  low := 1
  high := 0

/- Take one more byte into account. -/
def push
    (sums : Adler32)
    (b : UInt8) : Adler32 :=
  let low := (sums.low + b.toNat) % modulus
  { low := low
    high := (sums.high + low) % modulus }

/- The second sum in the upper half, the first in the lower. -/
def value
    (sums : Adler32) : UInt32 :=
  UInt32.ofNat (sums.high * 65536 + sums.low)

end Adler32

end SplitStream
