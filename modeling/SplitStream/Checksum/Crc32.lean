import SplitStream.Bytes.Basic

/-
  This file defines the CRC-32 checksum with the reflected
  polynomial 0xEDB88320: the register starts with all bits
  set, takes the bits of each byte lowest first, and is
  inverted at the end.

  Key definitions include:
    * `Crc32`
    * `Crc32.shift`
    * `Crc32.push`
    * `Crc32.value`
-/

------------------------------------------------------------
-- CRC-32
------------------------------------------------------------

namespace SplitStream

/- The register of a checksum in progress. -/
structure Crc32 where
  register : UInt32

namespace Crc32

/- The polynomial, lowest power in the highest bit. -/
def polynomial : UInt32 :=
  0xEDB88320

/- The register of no bytes. -/
def start : Crc32 where
  register := 0xFFFFFFFF

/-
  Shift the register by one bit; a bit that falls out
  subtracts the polynomial.
-/
@[inline]
def shift
    (r : UInt32) : UInt32 :=
  if r &&& 1 = 1 then
    (r >>> 1) ^^^ polynomial
  else
    r >>> 1

/- Take one more byte into account. -/
def push
    (crc : Crc32)
    (b : UInt8) : Crc32 :=
  let r := crc.register ^^^ b.toUInt32
  { register :=
      shift (shift (shift (shift
        (shift (shift (shift (shift r))))))) }

/- The inverted register. -/
def value
    (crc : Crc32) : UInt32 :=
  ~~~crc.register

end Crc32

end SplitStream
