import Mathlib.Data.Nat.ModEq
import Mathlib.Tactic.Ring
import SplitStream.Proofs.Checksum.Detection

/-
  The checksums as they are usually specified. Adler-32 is
  given by two closed sums over the bytes. CRC-32 is given by
  a division of polynomials: highest power first, with all
  bits of the register set at the start and inverted at the
  end, and with the bits of the bytes and of the result in
  reverse order.

  Main declarations:
    * `Adler32.standard`
    * `Crc32.standard`
    * `Checksum.standard`
    * `Checksum.compute_eq_standard`
-/

------------------------------------------------------------
-- Adler-32
------------------------------------------------------------

namespace SplitStream

namespace Adler32

/-
  The sum of all bytes, of which the first one counts as often
  as there are bytes, and the last one once.
-/
def weighted : Bytes → Nat
  | [] => 0
  | b :: bs => (bs.length + 1) * b.toNat + weighted bs

/- Adler-32 in closed form. -/
def standard
    (bs : Bytes) : UInt32 :=
  UInt32.ofNat
    ((bs.length + weighted bs) % 65521 * 65536 +
      (1 + total bs) % 65521)

/- The second sum adds up all values of the first. -/
theorem high_foldl
    (bs : Bytes)
    (sums : Adler32)
    (hHigh : sums.high < modulus) :
    (bs.foldl push sums).high =
      (sums.high + bs.length * sums.low + weighted bs) %
        modulus := by
  induction bs generalizing sums with
  | nil =>
    rw [List.foldl_nil, List.length_nil, weighted, Nat.zero_mul]
    exact (Nat.mod_eq_of_lt hHigh).symm
  | cons b bs ih =>
    have hNext : (sums.push b).high < modulus :=
      Nat.mod_lt _ (by decide)
    have hLow :
        (sums.push b).low ≡ sums.low + b.toNat [MOD modulus] :=
      Nat.mod_modEq _ _
    have hFirst :
        (sums.push b).high ≡
          sums.high + (sums.low + b.toNat) [MOD modulus] :=
      (Nat.mod_modEq _ _).trans (hLow.add_left sums.high)
    have hSums :
        (sums.push b).high + bs.length * (sums.push b).low +
            weighted bs ≡
          sums.high + (sums.low + b.toNat) +
              bs.length * (sums.low + b.toNat) +
            weighted bs [MOD modulus] :=
      (hFirst.add (hLow.mul_left bs.length)).add_right _
    have hAll :
        sums.high + (sums.low + b.toNat) +
              bs.length * (sums.low + b.toNat) +
            weighted bs =
          sums.high + (b :: bs).length * sums.low +
            weighted (b :: bs) := by
      rw [List.length_cons, weighted]
      ring
    rw [List.foldl_cons, ih _ hNext]
    exact hSums.trans (congrArg (· % modulus) hAll)

theorem compute_eq_standard
    (bs : Bytes) :
    Checksum.adler32.compute bs = standard bs := by
  have hLow := low_foldl bs start (by decide)
  have hHigh := high_foldl bs start (by decide)
  have hStart :
      start.high + bs.length * start.low + weighted bs =
        bs.length + weighted bs := by
    change 0 + bs.length * 1 + weighted bs = _
    omega
  rw [hStart] at hHigh
  change (bs.foldl push start).value = standard bs
  rw [value, hLow, hHigh]
  rfl

end Adler32

------------------------------------------------------------
-- CRC-32
------------------------------------------------------------

namespace Crc32

/- The polynomial, without its highest power. -/
def generator : BitVec 32 :=
  0x04C11DB7#32

/- One step of a division by the polynomial. -/
def divide
    (r : BitVec 32) : BitVec 32 :=
  if r.msb then
    (r <<< 1) ^^^ generator
  else
    r <<< 1

/-
  Eight steps, after a byte has been added to the highest
  powers, its lowest bit to the highest one.
-/
def absorb
    (r : BitVec 32)
    (b : UInt8) : BitVec 32 :=
  divide (divide (divide (divide
    (divide (divide (divide (divide
      (r ^^^ (b.toBitVec.reverse ++ 0#24)))))))))

/- CRC-32 as the remainder of a division. -/
def standard
    (bs : Bytes) : UInt32 :=
  .ofBitVec (~~~(bs.foldl absorb 0xFFFFFFFF#32).reverse)

theorem reverse_xor
    (x y : BitVec 32) :
    (x ^^^ y).reverse = x.reverse ^^^ y.reverse := by
  apply BitVec.eq_of_getMsbD_eq
  intro i _
  simp only [BitVec.getMsbD_reverse, BitVec.getMsbD_xor,
    BitVec.getLsbD_xor]

theorem reverse_ushiftRight
    (x : BitVec 32) :
    (x >>> 1).reverse = x.reverse <<< 1 := by
  apply BitVec.eq_of_getMsbD_eq
  intro i _
  simp only [BitVec.getMsbD_reverse, BitVec.getMsbD_shiftLeft,
    BitVec.getLsbD_ushiftRight, Nat.add_comm 1 i]

/- The bits of a byte come to the highest powers. -/
theorem reverse_byte
    (b : UInt8) :
    b.toUInt32.toBitVec.reverse =
      b.toBitVec.reverse ++ 0#24 := by
  apply BitVec.eq_of_getMsbD_eq
  intro i hInside
  rw [BitVec.getMsbD_reverse, UInt8.toBitVec_toUInt32,
    BitVec.getLsbD_setWidth, BitVec.getMsbD_append,
    BitVec.getMsbD_reverse]
  by_cases hZero : 8 ≤ i
  · simp [hZero]
  · simp [hZero, hInside]

/- A shift of the register is a step of the division. -/
theorem reverse_shift
    (r : UInt32) :
    (shift r).toBitVec.reverse = divide r.toBitVec.reverse := by
  have hGenerator : polynomial.toBitVec.reverse = generator := by
    decide +kernel
  rw [toBitVec_shift, divide, BitVec.msb_reverse]
  by_cases hBit : r.toBitVec.getLsbD 0 = true
  · rw [if_pos hBit, if_pos hBit, reverse_xor,
      reverse_ushiftRight, hGenerator]
  · rw [if_neg hBit, if_neg hBit, reverse_ushiftRight]

theorem reverse_push
    (crc : Crc32)
    (b : UInt8) :
    (crc.push b).register.toBitVec.reverse =
      absorb crc.register.toBitVec.reverse b := by
  simp only [push, absorb, reverse_shift, UInt32.toBitVec_xor,
    reverse_xor, reverse_byte]

/- The register goes through the division in reverse order. -/
theorem reverse_foldl
    (bs : Bytes)
    (crc : Crc32) :
    (bs.foldl push crc).register.toBitVec.reverse =
      bs.foldl absorb crc.register.toBitVec.reverse := by
  induction bs generalizing crc with
  | nil => rfl
  | cons b bs ih =>
    rw [List.foldl_cons, List.foldl_cons, ih, reverse_push]

theorem compute_eq_standard
    (bs : Bytes) :
    Checksum.crc32.compute bs = standard bs := by
  have hFold := reverse_foldl bs start
  have hStart :
      start.register.toBitVec.reverse = 0xFFFFFFFF#32 := by
    decide +kernel
  rw [hStart] at hFold
  apply UInt32.toBitVec_inj.mp
  change (bs.foldl push start).value.toBitVec = _
  rw [standard, ← hFold, BitVec.reverse_reverse_eq, value,
    UInt32.toBitVec_not]

end Crc32

------------------------------------------------------------
-- Both Kinds
------------------------------------------------------------

namespace Checksum

/- A checksum as it is usually specified. -/
def standard : Checksum → Bytes → UInt32
  | adler32 => Adler32.standard
  | crc32 => Crc32.standard

/- What is computed are the checksums as usually specified. -/
theorem compute_eq_standard
    (kind : Checksum)
    (bs : Bytes) :
    kind.compute bs = kind.standard bs := by
  cases kind with
  | adler32 => exact Adler32.compute_eq_standard bs
  | crc32 => exact Crc32.compute_eq_standard bs

/- The check values of both, from the digits one to nine. -/
example :
    let digits : Bytes := [49, 50, 51, 52, 53, 54, 55, 56, 57]
    adler32.compute digits = 0x091E01DE ∧
      crc32.compute digits = 0xCBF43926 := by
  decide +kernel

end Checksum

end SplitStream
