import SplitStream.Checksum.Basic

/-
  Detection of altered bytes. A checksum of some bytes is not
  that of bytes that differ in a single place, however many
  there are and wherever the place is.

  For Adler-32, two bytes differ by less than the modulus, so
  the sum of all bytes tells them apart. For CRC-32, each step
  of the register can be undone, so registers that differ once
  go on to differ.

  Main declarations:
    * `Bytes.Altered`
    * `Bytes.altered_set`
    * `Adler32.compute_mod`
    * `Crc32.shift_injective`
    * `Checksum.compute_ne_of_altered`
-/

------------------------------------------------------------
-- Altered Bytes
------------------------------------------------------------

namespace SplitStream

namespace Bytes

/- Byte strings that differ in exactly one place. -/
inductive Altered : Bytes → Bytes → Prop where
  | intro (front : Bytes) {a b : UInt8} (back : Bytes) :
      a ≠ b → Altered (front ++ a :: back) (front ++ b :: back)

theorem Altered.length_eq
    {bs cs : Bytes}
    (h : Altered bs cs) :
    cs.length = bs.length := by
  rcases h with ⟨front, back, _⟩
  simp

theorem Altered.ne
    {bs cs : Bytes}
    (h : Altered bs cs) :
    bs ≠ cs := by
  rcases h with ⟨front, back, hOther⟩
  intro hSame
  exact hOther (List.cons.inj (List.append_cancel_left hSame)).1

/- Another byte in a place makes other bytes. -/
theorem set_ne
    {bs : Bytes}
    {k : Nat}
    {b : UInt8}
    (hInside : k < bs.length)
    (hOther : bs[k]? ≠ some b) :
    bs.set k b ≠ bs := by
  intro hSame
  apply hOther
  rw [← hSame, List.getElem?_set_self hInside]

/- A replaced byte is the only one that is altered. -/
theorem altered_set
    {bs : Bytes}
    {k : Nat}
    {b : UInt8}
    (hOther : bs.set k b ≠ bs) :
    Altered bs (bs.set k b) := by
  have hInside : k < bs.length := by
    apply Nat.lt_of_not_le
    intro hOutside
    exact hOther (List.set_eq_of_length_le hOutside)
  have hSplit := @List.exists_of_set UInt8 k b bs hInside
  rcases hSplit with ⟨front, back, hBytes, rfl, hSet⟩
  have hDiffer : bs[front.length] ≠ b := by
    rintro rfl
    exact hOther (List.set_getElem_self hInside)
  have hAltered := Altered.intro front back hDiffer
  rwa [← hBytes, ← hSet] at hAltered

end Bytes

------------------------------------------------------------
-- Adler-32
------------------------------------------------------------

namespace Adler32

/- The sum of all bytes. -/
def total : Bytes → Nat
  | [] => 0
  | b :: bs => b.toNat + total bs

theorem total_append
    (bs cs : Bytes) :
    total (bs ++ cs) = total bs + total cs := by
  induction bs with
  | nil => simp [total]
  | cons b bs ih =>
    rw [List.cons_append, total, total, ih, Nat.add_assoc]

/- The first sum adds up all bytes. -/
theorem low_foldl
    (bs : Bytes)
    (sums : Adler32)
    (hLow : sums.low < modulus) :
    (bs.foldl push sums).low =
      (sums.low + total bs) % modulus := by
  induction bs generalizing sums with
  | nil => exact (Nat.mod_eq_of_lt hLow).symm
  | cons b bs ih =>
    have hNext : (sums.push b).low < modulus :=
      Nat.mod_lt _ (by decide)
    rw [List.foldl_cons, ih _ hNext, total, push,
      Nat.mod_add_mod, Nat.add_assoc]

/- The lower half of a checksum is the first sum. -/
theorem value_mod
    (sums : Adler32)
    (hLow : sums.low < modulus) :
    sums.value.toNat % 65536 = sums.low := by
  unfold modulus at hLow
  rw [value, UInt32.toNat_ofNat']
  omega

/- The lower half tells the sum of all bytes. -/
theorem compute_mod
    (bs : Bytes) :
    (Checksum.adler32.compute bs).toNat % 65536 =
      (1 + total bs) % modulus := by
  have hStart : start.low < modulus := by
    decide
  have hLow := low_foldl bs start hStart
  have hLess : (bs.foldl push start).low < modulus := by
    rw [hLow]
    exact Nat.mod_lt _ (by decide)
  exact (value_mod _ hLess).trans hLow

end Adler32

------------------------------------------------------------
-- CRC-32
------------------------------------------------------------

namespace Crc32

/- The bit that falls out of the register. -/
theorem and_one_iff
    (r : UInt32) :
    r &&& 1 = 1 ↔ r.toBitVec.getLsbD 0 = true := by
  rw [← UInt32.toNat_inj, UInt32.toNat_and]
  simp [BitVec.getLsbD, Nat.testBit_zero, Nat.and_one_is_mod]

theorem toBitVec_shift
    (r : UInt32) :
    (shift r).toBitVec =
      if r.toBitVec.getLsbD 0 = true then
        (r.toBitVec >>> 1) ^^^ polynomial.toBitVec
      else
        r.toBitVec >>> 1 := by
  unfold shift
  by_cases hBit : r.toBitVec.getLsbD 0 = true
  · rw [if_pos ((and_one_iff r).mpr hBit), if_pos hBit]
    simp
  · rw [if_neg (mt (and_one_iff r).mp hBit), if_neg hBit]
    simp

/- The highest bit tells which bit has fallen out. -/
theorem getLsbD_shift
    (r : UInt32) :
    (shift r).toBitVec.getLsbD 31 = r.toBitVec.getLsbD 0 := by
  have hHigh : polynomial.toBitVec.getLsbD 31 = true := by
    decide
  rw [toBitVec_shift]
  by_cases hBit : r.toBitVec.getLsbD 0 = true
  · rw [if_pos hBit, BitVec.getLsbD_xor, hHigh, hBit]
    simp
  · rw [if_neg hBit]
    simp at hBit
    simp [hBit]

/- Each shift of the register can be undone. -/
theorem shift_injective
    {r s : UInt32}
    (h : shift r = shift s) :
    r = s := by
  have hBit : r.toBitVec.getLsbD 0 = s.toBitVec.getLsbD 0 := by
    rw [← getLsbD_shift, ← getLsbD_shift, h]
  have hRest : r.toBitVec >>> 1 = s.toBitVec >>> 1 := by
    have hBoth := congrArg UInt32.toBitVec h
    rw [toBitVec_shift, toBitVec_shift, hBit] at hBoth
    by_cases hOut : s.toBitVec.getLsbD 0 = true
    · rw [if_pos hOut, if_pos hOut] at hBoth
      exact (BitVec.xor_left_inj _).mp hBoth
    · rwa [if_neg hOut, if_neg hOut] at hBoth
  apply UInt32.toBitVec_inj.mp
  apply BitVec.eq_of_getLsbD_eq
  intro i _
  cases i with
  | zero => exact hBit
  | succ i =>
    have hShifted := congrArg (fun x => x.getLsbD i) hRest
    simpa [Nat.add_comm] using hShifted

/- Registers that differ go on to differ. -/
theorem push_left_injective
    {crc other : Crc32}
    {b : UInt8}
    (h : crc.push b = other.push b) :
    crc = other := by
  rcases crc with ⟨r⟩
  rcases other with ⟨s⟩
  have hShifts := congrArg register h
  have hMixed : r ^^^ b.toUInt32 = s ^^^ b.toUInt32 := by
    iterate 8 apply shift_injective
    exact hShifts
  rw [(UInt32.xor_left_inj _).mp hMixed]

/- Two bytes take a register to two different ones. -/
theorem push_right_injective
    {crc : Crc32}
    {a b : UInt8}
    (h : crc.push a = crc.push b) :
    a = b := by
  have hShifts := congrArg register h
  have hMixed :
      crc.register ^^^ a.toUInt32 = crc.register ^^^ b.toUInt32 := by
    iterate 8 apply shift_injective
    exact hShifts
  have hWord := (UInt32.xor_right_inj _).mp hMixed
  have hByte := congrArg UInt32.toNat hWord
  rw [UInt8.toNat_toUInt32, UInt8.toNat_toUInt32] at hByte
  exact UInt8.toNat_inj.mp hByte

theorem foldl_injective
    (bs : Bytes)
    {crc other : Crc32}
    (h : bs.foldl push crc = bs.foldl push other) :
    crc = other := by
  induction bs generalizing crc other with
  | nil => exact h
  | cons b bs ih => exact push_left_injective (ih h)

/- The last inversion can be undone, too. -/
theorem value_injective
    {crc other : Crc32}
    (h : crc.value = other.value) :
    crc = other := by
  rcases crc with ⟨r⟩
  rcases other with ⟨s⟩
  have hSame : r = s := UInt32.not_inj.mp h
  rw [hSame]

end Crc32

------------------------------------------------------------
-- Both Kinds
------------------------------------------------------------

namespace Checksum

/- One byte that is altered changes every checksum. -/
theorem compute_ne_of_altered
    (kind : Checksum)
    {bs cs : Bytes}
    (h : bs.Altered cs) :
    kind.compute bs ≠ kind.compute cs := by
  rcases h with ⟨front, back, hOther⟩
  rename_i a b
  intro hSame
  apply hOther
  cases kind with
  | adler32 =>
    have hSums := congrArg (fun w => w.toNat % 65536) hSame
    simp only [Adler32.compute_mod, Adler32.total_append,
      Adler32.total, Adler32.modulus] at hSums
    have hLeft := a.toNat_lt
    have hRight := b.toNat_lt
    apply UInt8.toNat_inj.mp
    omega
  | crc32 =>
    have hFold :
        (front ++ a :: back).foldl Crc32.push .start =
          (front ++ b :: back).foldl Crc32.push .start :=
      Crc32.value_injective hSame
    rw [List.foldl_append, List.foldl_append] at hFold
    exact
      Crc32.push_right_injective
        (Crc32.foldl_injective back hFold)

end Checksum

end SplitStream
