import SplitStream.Bytes.Basic

/-
  This file defines how byte strings are read as texts.
  Bytes that are no UTF-8 are read too: each longest run that
  could begin a character but does not become one is read as
  the replacement character.

  Key definitions include:
    * `Utf8.Lead`
    * `Utf8.follow`
    * `Utf8.decode`
    * `Utf8.toText`
-/

------------------------------------------------------------
-- Characters
------------------------------------------------------------

namespace SplitStream

namespace Utf8

/- The character that stands for bytes that are no UTF-8. -/
def replacement : Char :=
  '\uFFFD'

/-
  What a leading byte says: the first bits of the code point,
  the number of bytes that follow, and the bounds of the
  first of them.
-/
structure Lead where
  bits : Nat
  following : Nat
  low : UInt8
  high : UInt8

/-
  The leading bytes of characters of more than one byte.
  Longer forms than needed, surrogates, and code points
  beyond the last plane are left out by the bounds.
-/
def lead?
    (b : UInt8) : Option Lead :=
  if b < 0xC2 then none
  else if b < 0xE0 then
    some ⟨b.toNat - 0xC0, 1, 0x80, 0xBF⟩
  else if b < 0xF0 then
    some ⟨b.toNat - 0xE0, 2,
      if b = 0xE0 then 0xA0 else 0x80,
      if b = 0xED then 0x9F else 0xBF⟩
  else if b < 0xF5 then
    some ⟨b.toNat - 0xF0, 3,
      if b = 0xF0 then 0x90 else 0x80,
      if b = 0xF4 then 0x8F else 0xBF⟩
  else none

/-
  Add the bits of the bytes that follow.  The first byte out
  of bounds ends the character before its time.
-/
def follow :
    Nat → UInt8 → UInt8 → Nat → Bytes → Char × Bytes
  | 0, _, _, bits, bs => (Char.ofNat bits, bs)
  | _ + 1, _, _, _, [] => (replacement, [])
  | n + 1, low, high, bits, b :: bs =>
      if low ≤ b ∧ b ≤ high then
        follow n 0x80 0xBF (bits * 64 + (b.toNat - 0x80)) bs
      else
        (replacement, b :: bs)

theorem length_follow_le
    (n : Nat)
    (low high : UInt8)
    (bits : Nat)
    (bs : Bytes) :
    (follow n low high bits bs).2.length ≤ bs.length := by
  induction n generalizing low high bits bs with
  | zero => simp [follow]
  | succ n ih =>
    cases bs with
    | nil => simp [follow]
    | cons b bs =>
      rw [follow]
      split
      · exact Nat.le_succ_of_le (ih ..)
      · simp

------------------------------------------------------------
-- Texts
------------------------------------------------------------

/- The characters of a byte string. -/
def decode : Bytes → List Char
  | [] => []
  | b :: bs =>
      if b < 0x80 then
        Char.ofNat b.toNat :: decode bs
      else
        match lead? b with
        | none => replacement :: decode bs
        | some lead =>
          (follow lead.following lead.low lead.high
              lead.bits bs).1 ::
            decode
              (follow lead.following lead.low lead.high
                lead.bits bs).2
termination_by bs => bs.length
decreasing_by
  · simp
  · simp
  · have h := length_follow_le lead.following lead.low
      lead.high lead.bits bs
    simp only [List.length_cons]
    omega

/- The text of a byte string. -/
def toText
    (bs : Bytes) : String :=
  String.ofList (decode bs)

end Utf8

end SplitStream
