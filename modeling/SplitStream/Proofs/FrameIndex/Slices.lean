import Mathlib.Data.List.Basic
import SplitStream.FrameIndex.Basic

/-
  Slices of a file. Workers cut a file at any positions, and
  each moves its two ends to the next frame without seeing
  the others. Neighbours move their common end to the same
  frame, so the slices tile the file.

  Main declarations:
    * `FrameIndex.nextFrom_eq_some_iff`
    * `FrameIndex.slices`
    * `FrameIndex.tiles_slices`
    * `FrameIndex.tiling_of_cuts`
-/

------------------------------------------------------------
-- Next Offsets
------------------------------------------------------------

namespace SplitStream

namespace FrameIndex

/- The least offset that is not before a position. -/
structure Leads
    (index : FrameIndex)
    (position offset : Nat) : Prop where
  mem : offset ∈ index.offsets
  behind : position ≤ offset
  least :
    ∀ other ∈ index.offsets,
      position ≤ other → offset ≤ other

variable {index : FrameIndex}
variable {position offset start stop fileLength last : Nat}

/- No two offsets lead from a position. -/
theorem Leads.unique
    {other : Nat}
    (h : index.Leads position offset)
    (hOther : index.Leads position other) :
    offset = other :=
  Nat.le_antisymm
    (h.least other hOther.mem hOther.behind)
    (hOther.least offset h.mem h.behind)

theorem leads_of_nextFrom
    (h : index.nextFrom position = some offset) :
    index.Leads position offset := by
  rcases List.find?_eq_some_iff_append.mp h with
    ⟨hBehind, before, later, hAll, hBefore⟩
  have hOrder := index.increasing
  rw [hAll] at hOrder
  have hLater :=
    (List.pairwise_cons.mp (List.pairwise_append.mp hOrder).2.1).1
  refine ⟨by simp [hAll], by simpa using hBehind, ?_⟩
  intro other hMem hOther
  rw [hAll, List.mem_append, List.mem_cons] at hMem
  rcases hMem with hMem | rfl | hMem
  · have hNot := hBefore other hMem
    simp at hNot
    omega
  · exact Nat.le_refl _
  · exact Nat.le_of_lt (hLater other hMem)

theorem nextFrom_eq_none_iff :
    index.nextFrom position = none ↔
      ∀ other ∈ index.offsets, other < position := by
  simp [nextFrom]

theorem nextFrom_eq_some_iff :
    index.nextFrom position = some offset ↔
      index.Leads position offset := by
  refine ⟨leads_of_nextFrom, fun hLeads => ?_⟩
  cases hNext : index.nextFrom position with
  | none =>
    have hAll := nextFrom_eq_none_iff.mp hNext offset hLeads.mem
    have hBehind := hLeads.behind
    omega
  | some found =>
    rw [(leads_of_nextFrom hNext).unique hLeads]

/- A slice ends at a frame, or at the end of the file. -/
theorem sliceEnd_mem
    (index : FrameIndex)
    (stop fileLength : Nat) :
    index.sliceEnd stop fileLength ∈ index.offsets ∨
      index.sliceEnd stop fileLength = fileLength := by
  cases hNext : index.nextFrom stop with
  | none => simp [sliceEnd, hNext]
  | some offset =>
    left
    simpa [sliceEnd, hNext] using (leads_of_nextFrom hNext).mem

------------------------------------------------------------
-- Slices
------------------------------------------------------------

/- The bytes of a file from `start` up to `stop`. -/
structure Slice where
  start : Nat
  stop : Nat
  deriving Repr, DecidableEq

/- A position lies in a slice. -/
def Slice.Holds
    (slice : Slice)
    (position : Nat) : Prop :=
  slice.start ≤ position ∧ position < slice.stop

instance
    (slice : Slice)
    (position : Nat) : Decidable (slice.Holds position) :=
  inferInstanceAs (Decidable (_ ∧ _))

/-
  The slice of the worker that is responsible for the bytes
  from `start` up to `stop`, if a frame starts there.
-/
def slice?
    (index : FrameIndex)
    (fileLength start stop : Nat) : Option Slice :=
  (index.sliceStart start stop).map fun first =>
    ⟨first, index.sliceEnd stop fileLength⟩

/- The slices of the workers between neighbouring cuts. -/
def slices
    (index : FrameIndex)
    (fileLength : Nat) : List Nat → List Slice
  | start :: stop :: cuts =>
      (index.slice? fileLength start stop).toList ++
        index.slices fileLength (stop :: cuts)
  | _ => []

/-
  What one worker does: if no frame starts between its cuts,
  they move to the same place, and otherwise its slice runs
  from where the one moves to where the other moves.
-/
theorem slice?_cases
    (fileLength : Nat)
    (hCuts : start < stop)
    (hLast : ∀ offset ∈ index.offsets, offset < fileLength) :
    index.slice? fileLength start stop = none ∧
        index.sliceEnd start fileLength =
          index.sliceEnd stop fileLength ∨
      index.slice? fileLength start stop =
          some
            ⟨index.sliceEnd start fileLength,
              index.sliceEnd stop fileLength⟩ ∧
        index.sliceEnd start fileLength ∈ index.offsets ∧
        index.sliceEnd start fileLength <
          index.sliceEnd stop fileLength := by
  cases hStart : index.nextFrom start with
  | none =>
    have hBefore := nextFrom_eq_none_iff.mp hStart
    have hStop : index.nextFrom stop = none :=
      nextFrom_eq_none_iff.mpr fun other hMem =>
        Nat.lt_trans (hBefore other hMem) hCuts
    left
    simp [slice?, sliceStart, sliceEnd, hStart, hStop]
  | some first =>
    have hFirst := leads_of_nextFrom hStart
    by_cases hHere : first < stop
    · right
      have hEnd : first < index.sliceEnd stop fileLength := by
        cases hStop : index.nextFrom stop with
        | none => simpa [sliceEnd, hStop] using hLast first hFirst.mem
        | some next =>
          have hBehind := (leads_of_nextFrom hStop).behind
          simp only [sliceEnd, hStop, Option.getD_some]
          omega
      have hBegin : index.sliceEnd start fileLength = first := by
        simp [sliceEnd, hStart]
      rw [hBegin]
      refine ⟨?_, hFirst.mem, hEnd⟩
      simp [slice?, sliceStart, hStart, hHere]
    · left
      -- The first frame behind `start` is behind `stop` too.
      have hStop : index.nextFrom stop = some first :=
        nextFrom_eq_some_iff.mpr
          ⟨hFirst.mem, Nat.not_lt.mp hHere,
            fun other hMem hOther =>
              hFirst.least other hMem (by omega)⟩
      simp [slice?, sliceStart, sliceEnd, hStart, hStop,
        Nat.not_lt.mp hHere]

------------------------------------------------------------
-- Tiles
------------------------------------------------------------

/-
  Slices that are not empty and follow one another from
  `start` up to `stop`.
-/
inductive Tiles : Nat → Nat → List Slice → Prop where
  | none
      (place : Nat) :
      Tiles place place []
  | more
      {start next stop : Nat}
      {slices : List Slice}
      (first : start < next)
      (others : Tiles next stop slices) :
      Tiles start stop (⟨start, next⟩ :: slices)

variable {slices : List Slice} {cuts : List Nat}

theorem Tiles.le
    (h : Tiles start stop slices) :
    start ≤ stop := by
  induction h with
  | none => exact Nat.le_refl _
  | more first _ ih => omega

theorem Tiles.nonempty
    (h : Tiles start stop slices) :
    ∀ slice ∈ slices, slice.start < slice.stop := by
  induction h with
  | none => simp
  | more first _ ih =>
    intro slice hMem
    rcases List.mem_cons.mp hMem with rfl | hMem
    · exact first
    · exact ih slice hMem

theorem Tiles.head?_eq
    (h : Tiles start stop slices)
    (hSome : start < stop) :
    slices.head?.map Slice.start = some start := by
  cases h with
  | none => omega
  | more => rfl

theorem Tiles.getLast?_eq
    (h : Tiles start stop slices)
    (hSome : start < stop) :
    slices.getLast?.map Slice.stop = some stop := by
  induction h with
  | none => omega
  | more first others ih =>
    cases others with
    | none => rfl
    | more next later =>
      rw [List.getLast?_cons_cons]
      exact ih (Nat.lt_of_lt_of_le next later.le)

/- Each slice ends where the next one starts. -/
theorem Tiles.joined
    (h : Tiles start stop slices) :
    slices.IsChain (fun left right => left.stop = right.start) := by
  induction h with
  | none => exact .nil
  | more _ others ih =>
    cases others with
    | none => exact .singleton _
    | more => exact .cons_cons rfl ih

/- No slice holds a position in front of all of them. -/
theorem Tiles.countP_before
    (h : Tiles start stop slices)
    (hBefore : position < start) :
    slices.countP (·.Holds position) = 0 := by
  induction h with
  | none => rfl
  | @more start next _ _ first _ ih =>
    have hNot : ¬ Slice.Holds ⟨start, next⟩ position :=
      fun hHolds => Nat.not_le.mpr hBefore hHolds.1
    rw [List.countP_cons, ih (Nat.lt_trans hBefore first)]
    simp [hNot]

/- One slice holds each position between the two ends. -/
theorem Tiles.countP_between
    (h : Tiles start stop slices)
    (hStart : start ≤ position)
    (hStop : position < stop) :
    slices.countP (·.Holds position) = 1 := by
  induction h with
  | none => omega
  | @more start next _ _ _ others ih =>
    by_cases hHere : position < next
    · have hFirst : Slice.Holds ⟨start, next⟩ position :=
        ⟨hStart, hHere⟩
      rw [List.countP_cons, others.countP_before hHere]
      simp [hFirst]
    · have hNot : ¬ Slice.Holds ⟨start, next⟩ position :=
        fun hHolds => hHere hHolds.2
      rw [List.countP_cons, ih (Nat.not_lt.mp hHere) hStop]
      simp [hNot]

------------------------------------------------------------
-- Slices Between Cuts
------------------------------------------------------------

/- The slices tile what is between the outermost cuts. -/
theorem tiles_slices
    (hCuts : (start :: cuts).Pairwise (· < ·))
    (hStop : (start :: cuts).getLast? = some stop)
    (hLast : ∀ offset ∈ index.offsets, offset < fileLength) :
    Tiles (index.sliceEnd start fileLength)
      (index.sliceEnd stop fileLength)
      (index.slices fileLength (start :: cuts)) := by
  induction cuts generalizing start with
  | nil =>
    rw [List.getLast?_singleton, Option.some.injEq] at hStop
    subst hStop
    exact .none _
  | cons next cuts ih =>
    have hNext := (List.pairwise_cons.mp hCuts).1 next (by simp)
    have hOthers :=
      ih (List.pairwise_cons.mp hCuts).2
        (by rwa [List.getLast?_cons_cons] at hStop)
    unfold FrameIndex.slices
    rcases slice?_cases fileLength hNext hLast with
      ⟨hNone, hSame⟩ | ⟨hSome, _, hLess⟩
    · rw [hNone, hSame]
      exact hOthers
    · rw [hSome]
      exact .more hLess hOthers

/- Slices start at frames. They end at frames, or with the file. -/
theorem bounds_of_mem_slices
    (hCuts : cuts.Pairwise (· < ·))
    (hLast : ∀ offset ∈ index.offsets, offset < fileLength) :
    ∀ slice ∈ index.slices fileLength cuts,
      slice.start ∈ index.offsets ∧
        (slice.stop ∈ index.offsets ∨ slice.stop = fileLength) := by
  fun_induction FrameIndex.slices index fileLength cuts with
  | case1 start stop cuts ih =>
    have hNext := (List.pairwise_cons.mp hCuts).1 stop (by simp)
    intro slice hMem
    rcases List.mem_append.mp hMem with hMem | hMem
    · rcases slice?_cases fileLength hNext hLast with
        ⟨hNone, _⟩ | ⟨hSome, hFirst, _⟩
      · simp [hNone] at hMem
      · rw [hSome, Option.toList_some, List.mem_singleton] at hMem
        subst hMem
        exact ⟨hFirst, index.sliceEnd_mem stop fileLength⟩
    · exact ih (List.pairwise_cons.mp hCuts).2 slice hMem
  | case2 => simp

/- Cuts that divide a whole file. -/
structure CutsUp
    (fileLength : Nat)
    (cuts : List Nat) : Prop where
  increasing : cuts.Pairwise (· < ·)
  first : cuts.head? = some 0
  last : cuts.getLast? = some fileLength

/-
  Slices that divide a file from its first frame on: each
  frame starts in exactly one of them, and each of them
  starts at a frame.
-/
structure Tiling
    (index : FrameIndex)
    (fileLength : Nat)
    (slices : List Slice) : Prop where
  nonempty : ∀ slice ∈ slices, slice.start < slice.stop
  joined :
    slices.IsChain (fun left right => left.stop = right.start)
  first : slices.head?.map Slice.start = index.offsets.head?
  last : slices.getLast?.map Slice.stop = some fileLength
  bounds :
    ∀ slice ∈ slices,
      slice.start ∈ index.offsets ∧
        (slice.stop ∈ index.offsets ∨ slice.stop = fileLength)
  once :
    ∀ offset ∈ index.offsets,
      slices.countP (·.Holds offset) = 1

/- The first offset leads from the start of the file. -/
theorem leads_of_head?
    (hFirst : index.offsets.head? = some offset) :
    index.Leads 0 offset := by
  rcases List.head?_eq_some_iff.mp hFirst with ⟨rest, hAll⟩
  have hOrder := index.increasing
  rw [hAll] at hOrder
  refine ⟨by simp [hAll], Nat.zero_le _, ?_⟩
  intro other hMem _
  rw [hAll] at hMem
  rcases List.mem_cons.mp hMem with rfl | hMem
  · exact Nat.le_refl _
  · exact Nat.le_of_lt ((List.pairwise_cons.mp hOrder).1 other hMem)

/- All offsets are before the end if the last one is. -/
theorem lt_of_getLast?
    (hLast : index.offsets.getLast? = some last)
    (hLess : last < fileLength) :
    ∀ offset ∈ index.offsets, offset < fileLength := by
  intro offset hMem
  rcases List.getLast?_eq_some_iff.mp hLast with ⟨front, hAll⟩
  have hOrder := index.increasing
  rw [hAll] at hOrder hMem
  rcases List.mem_append.mp hMem with hMem | hMem
  · have hBefore :=
      (List.pairwise_append.mp hOrder).2.2 offset hMem last (by simp)
    omega
  · rw [List.mem_singleton.mp hMem]
    exact hLess

/- Wherever a file is cut, the slices of its workers tile it. -/
theorem tiling_of_cuts
    (index : FrameIndex)
    (fileLength last : Nat)
    (cuts : List Nat)
    (hLast : index.offsets.getLast? = some last)
    (hLess : last < fileLength)
    (hCuts : CutsUp fileLength cuts) :
    index.Tiling fileLength (index.slices fileLength cuts) := by
  have hBefore := lt_of_getLast? hLast hLess
  rcases List.head?_eq_some_iff.mp hCuts.first with ⟨later, rfl⟩
  have hTiles :=
    tiles_slices hCuts.increasing hCuts.last hBefore
  cases hFirst : index.offsets.head? with
  | none => simp [List.head?_eq_none_iff.mp hFirst] at hLast
  | some first =>
    have hLeads := leads_of_head? hFirst
    have hStart : index.sliceEnd 0 fileLength = first := by
      simp [sliceEnd, nextFrom_eq_some_iff.mpr hLeads]
    have hStop : index.sliceEnd fileLength fileLength = fileLength := by
      simp [sliceEnd, nextFrom_eq_none_iff.mpr hBefore]
    rw [hStart, hStop] at hTiles
    have hSome := hBefore first hLeads.mem
    exact
      { nonempty := hTiles.nonempty
        joined := hTiles.joined
        first := by rw [hTiles.head?_eq hSome, hFirst]
        last := hTiles.getLast?_eq hSome
        bounds := bounds_of_mem_slices hCuts.increasing hBefore
        once := fun offset hMem =>
          hTiles.countP_between
            (hLeads.least offset hMem (Nat.zero_le _))
            (hBefore offset hMem) }

/- Three frames behind a header. -/
def threeFrames : FrameIndex where
  offsets := [38, 100, 200]
  increasing := by decide

/-
  Cuts in the header, at a frame, right behind it, and two
  inside one frame.
-/
def sevenCuts : List Nat :=
  [0, 10, 38, 39, 120, 130, 250]

theorem tiling_of_cuts_of_threeFrames :
    threeFrames.offsets.getLast? = some 200 ∧
      200 < 250 ∧
      CutsUp 250 sevenCuts ∧
      threeFrames.Tiling 250 (threeFrames.slices 250 sevenCuts) := by
  have hCuts : CutsUp 250 sevenCuts :=
    ⟨by decide, by decide, by decide⟩
  refine ⟨rfl, by decide, hCuts, ?_⟩
  exact
    tiling_of_cuts threeFrames 250 200 sevenCuts rfl (by decide)
      hCuts

example :
    threeFrames.slices 250 sevenCuts =
      [⟨38, 100⟩, ⟨100, 200⟩, ⟨200, 250⟩] := by
  decide

end FrameIndex

end SplitStream
