import SplitStream.Codec.Lz4.Block

/-
  This file defines the search for repetitions in a block.
  The position of every group of four bytes is noted under a
  hash of the group; where the group noted under the same
  hash is equal, the repetition is followed as far as it
  goes.

  A copy starts no later than twelve bytes and ends no later
  than five bytes before the end of the block.

  Key definitions include:
    * `Lz4.repetitionLength`
    * `Lz4.search`
-/

------------------------------------------------------------
-- Groups
------------------------------------------------------------

namespace SplitStream

namespace Lz4

/- The bytes that the search leaves at the end of a block. -/
def searchMargin : Nat :=
  12

/- The bytes that no copy reaches at the end of a block. -/
def copyMargin : Nat :=
  5

/- The largest distance of a copy. -/
def maxOffset : Nat :=
  65535

/- The number of places at which positions are noted. -/
def noteCount : Nat :=
  4096

/- The group of four bytes at a position, as a word. -/
def group
    (block : Array UInt8)
    (i : Nat) : Nat :=
  (block.getD i 0).toNat +
    256 * ((block.getD (i + 1) 0).toNat +
      256 * ((block.getD (i + 2) 0).toNat +
        256 * (block.getD (i + 3) 0).toNat))

/- The place under which the position of a group is noted. -/
def noteOf
    (word : Nat) : Nat :=
  word * 2654435761 % 4294967296 / 1048576 % noteCount

------------------------------------------------------------
-- Repetitions
------------------------------------------------------------

/-
  The number of equal bytes from two positions on, counting
  at most `limit` of them.
-/
def repetitionLength
    (block : Array UInt8)
    (earlier later : Nat) : Nat → Nat
  | 0 => 0
  | limit + 1 =>
      if block.getD earlier 0 = block.getD later 0 then
        repetitionLength block (earlier + 1) (later + 1) limit + 1
      else
        0

/- The bytes of a block from one position up to another. -/
def between
    (block : Array UInt8)
    (first last : Nat) : Bytes :=
  (block.extract first last).toList

/-
  Search a block from position `i` on.  `anchor` is the end
  of the last copy, and `notes` holds positions increased by
  one.  The sequences found are returned last first, with
  the position after them.
-/
def searchFrom
    (block : Array UInt8)
    (i anchor : Nat)
    (notes : Array Nat)
    (found : List Sequence) : List Sequence × Nat :=
  if block.size < i + searchMargin then
    (found, anchor)
  else
    let word := group block i
    let place := noteOf word
    let noted := notes.getD place 0
    let notes := notes.setIfInBounds place (i + 1)
    let offset := i + 1 - noted
    if 0 < noted ∧ offset ≤ maxOffset ∧
        group block (noted - 1) = word then
      let length :=
        repetitionLength block (noted + 3) (i + 4)
          (block.size - copyMargin - (i + 4))
      let sequence : Sequence :=
        { literals := between block anchor i
          offset := offset
          length := length }
      searchFrom block (i + 4 + length) (i + 4 + length) notes
        (sequence :: found)
    else
      searchFrom block (i + 1) anchor notes found
termination_by block.size - i
decreasing_by
  all_goals
    simp only [searchMargin] at *
    omega

/- The sequences found in a block, and its last literals. -/
def search
    (block : Bytes) : List Sequence × Bytes :=
  let block := block.toArray
  let (found, anchor) :=
    searchFrom block 0 0 (Array.replicate noteCount 0) []
  (found.reverse, between block anchor block.size)

end Lz4

end SplitStream
