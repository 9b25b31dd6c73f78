import SplitStream.Bytes.Basic

/-
  This file defines scratch areas: buffers that start out as
  zeros, are overwritten at their front, and are read from
  their front.  What one use leaves behind is still there in
  the next one.

  Only the part that has been written is kept; all bytes
  after it are zeros.  A scratch area for a large block
  therefore costs nothing before it is used.

  Key definitions include:
    * `Scratch`
    * `Scratch.overwrite`
    * `Scratch.front`
-/

------------------------------------------------------------
-- Scratch Areas
------------------------------------------------------------

namespace SplitStream

/- A buffer of zeros behind the bytes written so far. -/
structure Scratch where
  written : Bytes

namespace Scratch

/- The scratch area that nothing has been written to. -/
def blank : Scratch where
  written := []

instance : Inhabited Scratch :=
  ⟨blank⟩

/- Replace the first bytes. -/
def overwrite
    (area : Scratch)
    (bs : Bytes) : Scratch where
  written := bs ++ area.written.drop bs.length

/- The first `n` bytes. -/
def front
    (area : Scratch)
    (n : Nat) : Bytes :=
  let kept := area.written.take n
  kept ++ List.replicate (n - kept.length) 0

@[simp]
theorem length_front
    (area : Scratch)
    (n : Nat) :
    (area.front n).length = n := by
  simp only [front, List.length_append, List.length_take,
    List.length_replicate]
  omega

/- What is read from the front of what was written last. -/
theorem front_overwrite_of_le
    (area : Scratch)
    {bs : Bytes}
    {n : Nat}
    (hLe : n ≤ bs.length) :
    (area.overwrite bs).front n = bs.take n := by
  have hTake :
      (bs ++ area.written.drop bs.length).take n = bs.take n :=
    List.take_append_of_le_length hLe
  unfold front overwrite
  dsimp only
  rw [hTake, List.length_take, Nat.min_eq_left hLe, Nat.sub_self]
  exact List.append_nil _

/- What has just been written is read back. -/
@[simp]
theorem front_overwrite
    (area : Scratch)
    (bs : Bytes) :
    (area.overwrite bs).front bs.length = bs := by
  rw [front_overwrite_of_le area (Nat.le_refl _), List.take_length]

end Scratch

end SplitStream
