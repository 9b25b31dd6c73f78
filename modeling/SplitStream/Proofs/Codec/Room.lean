import SplitStream.Codec.Bundled
import SplitStream.Limits

/-
  Codecs that never fail. A writer hands its codec blocks of
  at most its block size, and a buffer with the room that
  such a block may need; every bundled codec packs them.

  The room that a codec asks for beyond a block does not grow
  with the block, but the bound on both together does. So one
  buffer serves every shorter block, and one limit every size
  of blocks.

  Main declarations:
    * `Codec.NeverFails`
    * `Bundled.bound`
    * `Bundled.bound_mono`
    * `Bundled.Fits`
    * `Bundled.Fits.room_mono`
    * `Bundled.Fits.neverFails`
    * `Codec.stored_fits`
    * `Codec.stored_neverFails`
-/

------------------------------------------------------------
-- Codecs That Never Fail
------------------------------------------------------------

namespace SplitStream

/-
  The codec packs every block of at most a given size, in the
  buffer of a writer with blocks of this size.
-/
def Codec.NeverFails
    (codec : Codec)
    (size : Nat) : Prop :=
  let room := size + codec.overhead size
  ∀ attempt block,
    block ≠ [] →
    block.length ≤ size →
      ∃ n,
        (codec.compress attempt block room).report = .ok n ∧
        n ≤ room

------------------------------------------------------------
-- Bounds
------------------------------------------------------------

namespace Bundled

/- The room within which every block of `n` bytes is packed. -/
def bound
    (kind : Bundled)
    (n : Nat) : Nat :=
  match kind with
  | stored => n
  | lz4 => 20 + n * 110 / 100
  | zstd =>
    n + n / 256 + (if n < 131072 then (131072 - n) / 2048 else 0)

/- A block fits the room for it as it is. -/
theorem le_bound
    (kind : Bundled)
    (n : Nat) :
    n ≤ kind.bound n := by
  cases kind with
  | stored => exact Nat.le_refl n
  | lz4 =>
    simp only [bound]
    omega
  | zstd =>
    simp only [bound]
    omega

/-
  Longer blocks never need less room. The margin of Zstandard
  shrinks up to 128 KiB, but by less than the block grows.
-/
theorem bound_mono
    (kind : Bundled)
    {n more : Nat}
    (hLe : n ≤ more) :
    kind.bound n ≤ kind.bound more := by
  cases kind with
  | stored => exact hLe
  | lz4 =>
    simp only [bound]
    omega
  | zstd =>
    simp only [bound]
    split
    · split
      · omega
      · omega
    · split
      · omega
      · omega

/- The room for the largest block can be told in a word. -/
theorem bound_lt
    (kind : Bundled) :
    kind.bound maxBlockSize < Bytes.wordCount 4 := by
  cases kind with
  | stored => decide
  | lz4 => decide
  | zstd => decide

/-
  A codec keeps to the bounds of a bundled one: it asks for
  the room that they leave beyond a block, and packs a block
  of a writer wherever there is the room that they give.
-/
structure Fits
    (kind : Bundled)
    (codec : Codec) : Prop where
  overhead : ∀ n, codec.overhead n = kind.bound n - n
  packs :
    ∀ attempt block room,
      block ≠ [] →
      block.length ≤ maxBlockSize →
      kind.bound block.length ≤ room →
        ∃ n,
          (codec.compress attempt block room).report = .ok n ∧
          n ≤ room

namespace Fits

variable {kind : Bundled} {codec : Codec}

/- A buffer for blocks of some size has the room of the bound. -/
theorem room_eq
    (h : kind.Fits codec)
    (size : Nat) :
    size + codec.overhead size = kind.bound size := by
  rw [h.overhead]
  exact Nat.add_sub_cancel' (kind.le_bound size)

/- Longer blocks never need a smaller buffer. -/
theorem room_mono
    (h : kind.Fits codec)
    {size more : Nat}
    (hLe : size ≤ more) :
    size + codec.overhead size ≤ more + codec.overhead more := by
  rw [h.room_eq, h.room_eq]
  exact kind.bound_mono hLe

/- The room for the largest block can be told in a word. -/
theorem limit_lt
    (h : kind.Fits codec) :
    maxBlockSize + codec.overhead maxBlockSize <
      Bytes.wordCount 4 := by
  rw [h.room_eq]
  exact kind.bound_lt

/- A writer hands a block to its codec with room enough. -/
theorem neverFails
    (h : kind.Fits codec)
    {size : Nat}
    (hSize : size ≤ maxBlockSize) :
    codec.NeverFails size := by
  intro attempt block hSome hLe
  rw [h.room_eq]
  exact
    h.packs attempt block _ hSome (Nat.le_trans hLe hSize)
      (kind.bound_mono hLe)

end Fits

end Bundled

------------------------------------------------------------
-- Stored
------------------------------------------------------------

/- A block is copied wherever it fits. -/
theorem Stored.report_copy
    {block : Bytes}
    {room : Nat}
    (hLength : block.length ≤ room) :
    (copy block room).report = .ok block.length := by
  rw [copy, if_pos hLength]
  rfl

/- Copying needs no room beyond the block. -/
theorem Codec.stored_fits :
    Bundled.stored.Fits Codec.stored where
  overhead := fun n => (Nat.sub_self n).symm
  packs := fun _ block _ _ _ hRoom =>
    ⟨block.length, Stored.report_copy hRoom, hRoom⟩

theorem Codec.stored_neverFails
    (size : Nat) :
    Codec.stored.NeverFails size :=
  fun _ block _ hLe =>
    ⟨block.length, Stored.report_copy hLe, hLe⟩

end SplitStream
