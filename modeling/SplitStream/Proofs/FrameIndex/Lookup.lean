import SplitStream.FrameIndex.Basic

/-
  Lookups in indexes. The offsets increase, so those at or
  before a position are at the front, and the last of them is
  the largest.

  Main declarations:
    * `FrameIndex.Covers`
    * `FrameIndex.startAtOrBefore_eq_none_iff`
    * `FrameIndex.startAtOrBefore_eq_some_iff`
-/

------------------------------------------------------------
-- Covered Positions
------------------------------------------------------------

namespace SplitStream

namespace FrameIndex

/-
  The offset that covers a position: the largest one that is
  not behind it, or the first one if all are behind it.
-/
structure Covers
    (index : FrameIndex)
    (position offset : Nat) : Prop where
  mem : offset ∈ index.offsets
  largest :
    ∀ other ∈ index.offsets,
      other ≤ position → other ≤ offset
  first :
    position < offset →
      ∀ other ∈ index.offsets, offset ≤ other

variable {index : FrameIndex} {position offset other : Nat}

/- No two offsets cover a position. -/
theorem Covers.unique
    (h : index.Covers position offset)
    (hOther : index.Covers position other) :
    offset = other := by
  have hLeft := h.largest other hOther.mem
  have hRight := hOther.largest offset h.mem
  by_cases hBehind : position < offset
  · have hFirst := h.first hBehind other hOther.mem
    by_cases hAlso : position < other
    · have hSame := hOther.first hAlso offset h.mem
      omega
    · omega
  · by_cases hAlso : position < other
    · have hSame := hOther.first hAlso offset h.mem
      omega
    · omega

/- An indexed offset covers itself. -/
theorem covers_self
    (hMem : offset ∈ index.offsets) :
    index.Covers offset offset where
  mem := hMem
  largest := fun _ _ hLe => hLe
  first := fun hLess => absurd hLess (Nat.lt_irrefl _)

------------------------------------------------------------
-- Lookups
------------------------------------------------------------

/- A position divides an index: first come its offsets. -/
theorem takeWhile_divides
    (position : Nat)
    {offsets : List Nat}
    (hOrder : offsets.Pairwise (· < ·)) :
    ∃ near far,
      offsets.takeWhile (· ≤ position) = near ∧
      offsets = near ++ far ∧
      (∀ other ∈ near, other ≤ position) ∧
      ∀ other ∈ far, position < other := by
  induction offsets with
  | nil => exact ⟨[], [], rfl, rfl, by simp, by simp⟩
  | cons first rest ih =>
    rw [List.pairwise_cons] at hOrder
    by_cases hFirst : first ≤ position
    · rcases ih hOrder.2 with ⟨near, far, hNear, hAll, hLe, hFar⟩
      refine
        ⟨first :: near, far, ?_, by rw [hAll]; rfl, ?_, hFar⟩
      · rw [List.takeWhile_cons_of_pos (by simpa using hFirst),
          hNear]
      · intro other hOther
        rcases List.mem_cons.mp hOther with rfl | hOther
        · exact hFirst
        · exact hLe other hOther
    · refine
        ⟨[], first :: rest,
          List.takeWhile_cons_of_neg (by simpa using hFirst), rfl,
          by simp, ?_⟩
      intro other hOther
      rcases List.mem_cons.mp hOther with rfl | hOther
      · omega
      · have hLess := hOrder.1 other hOther
        omega

/- The last offset that is not behind a position covers it. -/
theorem covers_of_last
    {front far : List Nat}
    (hAll : index.offsets = (front ++ [offset]) ++ far)
    (hHere : offset ≤ position)
    (hFar : ∀ other ∈ far, position < other) :
    index.Covers position offset where
  mem := by simp [hAll]
  largest := by
    intro other hMem hOther
    have hOrder := index.increasing
    rw [hAll] at hOrder hMem
    have hFront := (List.pairwise_append.mp hOrder).1
    rcases List.mem_append.mp hMem with hMem | hMem
    · rcases List.mem_append.mp hMem with hMem | hMem
      · exact
          Nat.le_of_lt
            ((List.pairwise_append.mp hFront).2.2 other hMem
              offset (by simp))
      · exact Nat.le_of_eq (List.mem_singleton.mp hMem)
    · have hLess := hFar other hMem
      omega
  first := fun hLess => absurd hLess (Nat.not_lt.mpr hHere)

/- If all offsets are behind a position, the first covers it. -/
theorem covers_of_first
    {rest : List Nat}
    (hAll : index.offsets = offset :: rest)
    (hFar : ∀ other ∈ offset :: rest, position < other) :
    index.Covers position offset where
  mem := by simp [hAll]
  largest := by
    intro other hMem hOther
    rw [hAll] at hMem
    have hLess := hFar other hMem
    omega
  first := by
    intro _ other hMem
    have hOrder := index.increasing
    rw [hAll] at hOrder hMem
    rcases List.mem_cons.mp hMem with rfl | hMem
    · exact Nat.le_refl _
    · exact
        Nat.le_of_lt
          ((List.pairwise_cons.mp hOrder).1 other hMem)

/- What a lookup finds covers the position. -/
theorem covers_of_startAtOrBefore
    (h : index.startAtOrBefore position = some offset) :
    index.Covers position offset := by
  rcases takeWhile_divides position index.increasing with
    ⟨near, far, hNear, hAll, hLe, hFar⟩
  rw [startAtOrBefore, hNear] at h
  rcases hLast : near.getLast? with _ | last
  · rw [hLast] at h
    rw [List.getLast?_eq_none_iff.mp hLast, List.nil_append]
      at hAll
    rcases List.head?_eq_some_iff.mp h with ⟨rest, hRest⟩
    rw [← hAll, hRest] at hFar
    exact covers_of_first hRest hFar
  · rw [hLast] at h
    cases h
    rcases List.getLast?_eq_some_iff.mp hLast with ⟨front, rfl⟩
    exact covers_of_last hAll (hLe offset (by simp)) hFar

/- A lookup finds nothing only in an index without offsets. -/
theorem startAtOrBefore_eq_none_iff :
    index.startAtOrBefore position = none ↔
      index.offsets = [] := by
  constructor
  · intro h
    rcases hAll : index.offsets with _ | ⟨first, rest⟩
    · rfl
    · rw [startAtOrBefore] at h
      rcases hLast :
          (index.offsets.takeWhile (· ≤ position)).getLast? with
        _ | last
      · rw [hLast, hAll] at h
        cases h
      · rw [hLast] at h
        cases h
  · intro hNone
    rw [startAtOrBefore, hNone]
    rfl

/- A lookup finds the offset that covers the position. -/
theorem startAtOrBefore_eq_some_iff :
    index.startAtOrBefore position = some offset ↔
      index.Covers position offset := by
  constructor
  · exact covers_of_startAtOrBefore
  · intro hCovers
    rcases hFound : index.startAtOrBefore position with _ | found
    · rw [startAtOrBefore_eq_none_iff] at hFound
      have hMem := hCovers.mem
      rw [hFound] at hMem
      cases hMem
    · have hSame :=
        (covers_of_startAtOrBefore hFound).unique hCovers
      rw [hSame]

/- The last offset at or before an offset is that offset. -/
theorem startAtOrBefore_of_mem
    (hMem : offset ∈ index.offsets) :
    index.startAtOrBefore offset = some offset :=
  startAtOrBefore_eq_some_iff.mpr (covers_self hMem)

end FrameIndex

end SplitStream
