import SplitStream.Error

/-
  This file defines frame indexes: the offsets at which the
  frames of a stream start, in strictly increasing order.
  An index is laid out as one word of eight bytes an offset.

  Key definitions include:
    * `FrameIndex`
    * `FrameIndex.ofOffsets`
    * `FrameIndex.push`
    * `FrameIndex.startAtOrBefore`
    * `FrameIndex.nextFrom`
    * `FrameIndex.sliceStart`
    * `FrameIndex.sliceEnd`
    * `FrameIndex.toBytes`
    * `FrameIndex.ofBytes`
-/

------------------------------------------------------------
-- Indexes
------------------------------------------------------------

namespace SplitStream

/- The offsets at which the frames of a stream start. -/
structure FrameIndex where
  offsets : List Nat
  increasing : offsets.Pairwise (· < ·)
  deriving DecidableEq

namespace FrameIndex

/- The index without offsets. -/
def empty : FrameIndex where
  offsets := []
  increasing := .nil

instance : Inhabited FrameIndex :=
  ⟨empty⟩

/- The number of frames. -/
def count
    (index : FrameIndex) : Nat :=
  index.offsets.length

/- There are no frames. -/
def isEmpty
    (index : FrameIndex) : Bool :=
  index.offsets.isEmpty

/- The offset of frame number `i`. -/
def position
    (index : FrameIndex)
    (i : Nat) : Option Nat :=
  index.offsets[i]?

------------------------------------------------------------
-- Construction
------------------------------------------------------------

/-
  The first two neighbours that are out of order, in a list
  that follows `previous`.
-/
def disorderAfter?
    (previous : Nat) : List Nat → Option (Nat × Nat)
  | [] => none
  | offset :: rest =>
      if previous < offset then
        disorderAfter? offset rest
      else
        some (previous, offset)

/- The first two neighbours that are out of order. -/
def disorder? : List Nat → Option (Nat × Nat)
  | [] => none
  | offset :: rest => disorderAfter? offset rest

theorem pairwise_of_disorderAfter?
    {previous : Nat}
    {offsets : List Nat}
    (h : disorderAfter? previous offsets = none) :
    (previous :: offsets).Pairwise (· < ·) := by
  induction offsets generalizing previous with
  | nil => simp
  | cons offset rest ih =>
    unfold disorderAfter? at h
    split at h
    · have hRest := ih h
      rename_i hLess
      refine List.pairwise_cons.mpr ⟨?_, hRest⟩
      intro later hLater
      rcases List.mem_cons.mp hLater with rfl | hLater
      · exact hLess
      · exact Nat.lt_trans hLess
          ((List.pairwise_cons.mp hRest).1 later hLater)
    · simp at h

theorem pairwise_of_disorder?
    {offsets : List Nat}
    (h : disorder? offsets = none) :
    offsets.Pairwise (· < ·) := by
  cases offsets with
  | nil => exact .nil
  | cons offset rest => exact pairwise_of_disorderAfter? h

/- The index of offsets in strictly increasing order. -/
def ofOffsets
    (offsets : List Nat) : Except Error FrameIndex :=
  match h : disorder? offsets with
  | none => .ok ⟨offsets, pairwise_of_disorder? h⟩
  | some (previous, offset) =>
      .error (.unorderedIndex previous offset)

theorem pairwise_push
    {offsets : List Nat}
    (hOffsets : offsets.Pairwise (· < ·))
    {previous offset : Nat}
    (hLast : offsets.getLast? = some previous)
    (hLess : previous < offset) :
    (offsets ++ [offset]).Pairwise (· < ·) := by
  refine List.pairwise_append.mpr ⟨hOffsets, by simp, ?_⟩
  intro earlier hEarlier later hLater
  rw [List.mem_singleton.mp hLater]
  rcases List.getLast?_eq_some_iff.mp hLast with ⟨front, hFront⟩
  rw [hFront] at hEarlier hOffsets
  rcases List.mem_append.mp hEarlier with hMem | hMem
  · exact Nat.lt_trans
      ((List.pairwise_append.mp hOffsets).2.2 earlier hMem
        previous (by simp))
      hLess
  · rw [List.mem_singleton.mp hMem]
    exact hLess

/- Add an offset behind the last one. -/
def push
    (index : FrameIndex)
    (offset : Nat) : Except Error FrameIndex :=
  match h : index.offsets.getLast? with
  | none => .ok ⟨[offset], by simp⟩
  | some previous =>
      if hLess : previous < offset then
        .ok ⟨index.offsets ++ [offset],
          pairwise_push index.increasing h hLess⟩
      else
        .error (.unorderedIndex previous offset)

------------------------------------------------------------
-- Lookup
------------------------------------------------------------

/-
  The last offset at or before a position, or the first
  offset if there is none.
-/
def startAtOrBefore
    (index : FrameIndex)
    (position : Nat) : Option Nat :=
  match (index.offsets.takeWhile (· ≤ position)).getLast? with
  | some offset => some offset
  | none => index.offsets.head?

/- The first offset at or after a position. -/
def nextFrom
    (index : FrameIndex)
    (position : Nat) : Option Nat :=
  index.offsets.find? (position ≤ ·)

/-
  The start of the slice of a worker that is responsible for
  the bytes from `start` up to `stop`: the first frame that
  starts there.
-/
def sliceStart
    (index : FrameIndex)
    (start stop : Nat) : Option Nat :=
  (index.nextFrom start).filter (· < stop)

/-
  The end of such a slice: the first frame that starts at or
  after `stop`, or the end of the file.
-/
def sliceEnd
    (index : FrameIndex)
    (stop fileLength : Nat) : Nat :=
  (index.nextFrom stop).getD fileLength

------------------------------------------------------------
-- Layout
------------------------------------------------------------

/- The number of bytes of an offset. -/
def entrySize : Nat :=
  8

/- The layout of one offset. -/
def encodeOffset
    (offset : Nat) : Bytes :=
  Bytes.bigEndian entrySize offset

/- The layout of an index. -/
def toBytes
    (index : FrameIndex) : Bytes :=
  index.offsets.flatMap encodeOffset

/- The offsets laid out one after another. -/
def decodeOffsets : Bytes → List Nat
  | b₀ :: b₁ :: b₂ :: b₃ :: b₄ :: b₅ :: b₆ :: b₇ :: rest =>
      Bytes.ofBigEndian [b₀, b₁, b₂, b₃, b₄, b₅, b₆, b₇] ::
        decodeOffsets rest
  | _ => []

/- The index with a given layout. -/
def ofBytes
    (bs : Bytes) : Except Error FrameIndex :=
  if bs.length % entrySize = 0 then
    ofOffsets (decodeOffsets bs)
  else
    .error (.corruptIndex bs.length)

end FrameIndex

end SplitStream
