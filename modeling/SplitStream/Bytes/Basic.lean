/-
  This file defines byte strings and the fixed-width
  words that every layout of this library is made of.

  Key definitions include:
    * `Bytes`
    * `Bytes.pieces`
    * `Bytes.wordCount`
    * `Bytes.bigEndian`
    * `Bytes.ofBigEndian`
    * `Bytes.littleEndian`
    * `Bytes.ofLittleEndian`

  The two word functions are inverse to each other:
    * `Bytes.ofBigEndian_bigEndian`
    * `Bytes.bigEndian_ofBigEndian`
-/

------------------------------------------------------------
-- Byte Strings
------------------------------------------------------------

namespace SplitStream

/- A byte string. -/
abbrev Bytes :=
  List UInt8

namespace Bytes

/- The UTF-8 form of a text. -/
def ofText
    (text : String) : Bytes :=
  text.toUTF8.toList

/-
  The pieces of `size` bytes that a byte string is made of,
  the last of which may be shorter.  Pieces of no size are
  taken as pieces of one byte.
-/
def pieces
    (size : Nat)
    (bs : Bytes) : List Bytes :=
  match bs with
  | [] => []
  | b :: rest =>
      (b :: rest.take (size - 1)) ::
        pieces size (rest.drop (size - 1))
termination_by bs.length
decreasing_by
  simp only [List.length_cons, List.length_drop]
  omega

/- The pieces put together are the byte string. -/
theorem flatten_pieces
    (size : Nat)
    (bs : Bytes) :
    (pieces size bs).flatten = bs := by
  fun_induction pieces size bs with
  | case1 => rfl
  | case2 b rest ih =>
    rw [List.flatten_cons, ih, List.cons_append,
      List.take_append_drop]

------------------------------------------------------------
-- Big-Endian Words
------------------------------------------------------------

/- The number of words that have `width` bytes. -/
def wordCount : Nat → Nat
  | 0 => 1
  | width + 1 => wordCount width * 256

theorem wordCount_pos
    (width : Nat) :
    0 < wordCount width := by
  induction width with
  | zero => exact Nat.one_pos
  | succ width ih => exact Nat.mul_pos ih (by decide)

/-
  The last `width` base-256 digits of `n`, the most
  significant first.  Higher digits are dropped.
-/
def bigEndian : Nat → Nat → Bytes
  | 0, _ => []
  | width + 1, n =>
      UInt8.ofNat (n / wordCount width) :: bigEndian width n

/- The number whose base-256 digits are the given bytes. -/
def ofBigEndian : Bytes → Nat
  | [] => 0
  | b :: bs => b.toNat * wordCount bs.length + ofBigEndian bs

/- The same digits, the least significant first. -/
def littleEndian
    (width n : Nat) : Bytes :=
  (bigEndian width n).reverse

/- The number with the given digits, least significant first. -/
def ofLittleEndian
    (bs : Bytes) : Nat :=
  ofBigEndian bs.reverse

@[simp]
theorem length_bigEndian
    (width n : Nat) :
    (bigEndian width n).length = width := by
  induction width with
  | zero => rfl
  | succ width ih => simp [bigEndian, ih]

/- A word is below the number of words as long. -/
theorem ofBigEndian_lt
    (bs : Bytes) :
    ofBigEndian bs < wordCount bs.length := by
  induction bs with
  | nil => exact Nat.one_pos
  | cons b bs ih =>
    have hb : b.toNat < 256 := b.toNat_lt
    have hMul :
        b.toNat * wordCount bs.length ≤
          255 * wordCount bs.length :=
      Nat.mul_le_mul_right _ (by omega)
    simp only [ofBigEndian, List.length_cons, wordCount]
    omega

/- Reading a written word gives its last digits. -/
theorem ofBigEndian_bigEndian
    (width n : Nat) :
    ofBigEndian (bigEndian width n) = n % wordCount width := by
  induction width with
  | zero => exact (Nat.mod_one n).symm
  | succ width ih =>
    rw [bigEndian, ofBigEndian, ih, length_bigEndian,
      wordCount, Nat.mod_mul]
    simp [UInt8.toNat_ofNat', Nat.mul_comm, Nat.add_comm]

/- A number that fits its width is read back whole. -/
theorem ofBigEndian_bigEndian_of_lt
    {width n : Nat}
    (h : n < wordCount width) :
    ofBigEndian (bigEndian width n) = n := by
  rw [ofBigEndian_bigEndian, Nat.mod_eq_of_lt h]

/- Digits above the written width do not show. -/
theorem bigEndian_add_mul
    (width m n : Nat) :
    bigEndian width (m * wordCount width + n) =
      bigEndian width n := by
  induction width generalizing m with
  | zero => rfl
  | succ width ih =>
    have hSplit :
        m * wordCount (width + 1) + n =
          (m * 256) * wordCount width + n := by
      rw [wordCount, Nat.mul_assoc, Nat.mul_comm 256]
    simp only [bigEndian]
    rw [hSplit, ih]
    congr 1
    apply UInt8.toNat_inj.mp
    simp only [UInt8.toNat_ofNat']
    rw [Nat.mul_comm (m * 256), Nat.mul_add_div (wordCount_pos width)]
    omega

/- Writing a read word gives the same bytes. -/
theorem bigEndian_ofBigEndian
    (bs : Bytes) :
    bigEndian bs.length (ofBigEndian bs) = bs := by
  induction bs with
  | nil => rfl
  | cons b bs ih =>
    rw [List.length_cons, bigEndian, ofBigEndian,
      bigEndian_add_mul, ih, Nat.mul_comm,
      Nat.mul_add_div (wordCount_pos _),
      Nat.div_eq_of_lt (ofBigEndian_lt bs), Nat.add_zero,
      UInt8.ofNat_toNat]

end Bytes

end SplitStream
