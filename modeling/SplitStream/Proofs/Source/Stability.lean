import SplitStream.Proofs.Source.Consumption

/-
  Readings of sources that have been cut short. A stable
  reading does the same whether or not bytes are missing at
  the end of its source, unless it runs into the cut; then it
  tells that the source is truncated.

  Main declarations:
    * `Step.Truncates`
    * `Reading.Stable`
    * `Reading.Stable.bind`
    * `Reading.Stable.recorded`
    * `Reading.stable_exactly`
    * `Reading.Starves`
    * `Reading.Stable.starves`
-/

------------------------------------------------------------
-- Truncated Steps
------------------------------------------------------------

namespace SplitStream

/- A step tells that a source ended too early. -/
def Step.Truncates
    {σ α : Type}
    (step : Action σ α)
    (s : σ) : Prop :=
  ∃ cut t, step.perform s = (.error (.truncated cut), t)

namespace Step.Truncates

variable
  {σ α β : Type} {step : Action σ α} {next : α → Action σ β}
  {s t : σ}

/- What follows a step that was cut short does not matter. -/
theorem bind
    (h : Step.Truncates step s) :
    Step.Truncates (step >>= next) s := by
  rcases h with ⟨cut, t, hCut⟩
  exact ⟨cut, t, Step.perform_bind_of_error hCut⟩

/- A step may be cut short behind one that succeeds. -/
theorem behind
    {a : α}
    (hNext : Step.Truncates (next a) t)
    (hStep : step.perform s = (.ok a, t)) :
    Step.Truncates (step >>= next) s := by
  rcases hNext with ⟨cut, u, hCut⟩
  exact ⟨cut, u, (Step.perform_bind_of_ok hStep).trans hCut⟩

end Step.Truncates

namespace Reading

variable {α β : Type}

------------------------------------------------------------
-- Stable Readings
------------------------------------------------------------

/-
  More bytes at the end of a source change nothing, unless
  the reading is cut short without them.
-/
def Stable
    (reading : Reading α) : Prop :=
  ∀ (source other : Source) (more : Bytes),
    source.fault = none →
    other.fault = none →
    other.rest = source.rest ++ more →
      (more ≠ [] ∧ Step.Truncates reading source) ∨
        ∃ result next later n,
          reading.perform source = (result, next) ∧
          reading.perform other = (result, later) ∧
          source.Ahead next n ∧
          other.Ahead later n ∧
          later.rest = next.rest ++ more

theorem stable_pure
    (a : α) :
    (pure a : Reading α).Stable := by
  intro source other more _ _ hRest
  right
  exact
    ⟨.ok a, source, other, 0, rfl, rfl, .refl source, .refl other,
      hRest⟩

theorem stable_throw
    (e : Error) :
    (throw e : Reading α).Stable := by
  intro source other more _ _ hRest
  right
  exact
    ⟨.error e, source, other, 0, rfl, rfl, .refl source,
      .refl other, hRest⟩

/- A sequence of stable readings is stable. -/
theorem Stable.bind
    {reading : Reading α}
    {after : α → Reading β}
    (hReading : reading.Stable)
    (hAfter : ∀ a, (after a).Stable) :
    (reading >>= after : Reading β).Stable := by
  intro source other more hFault hOther hRest
  rcases hReading source other more hFault hOther hRest with
    ⟨hMore, hCut⟩ |
    ⟨result, next, later, n, hHere, hThere, hAhead, hBeyond,
      hNext⟩
  · left
    exact ⟨hMore, hCut.bind⟩
  cases result with
  | error e =>
    right
    exact
      ⟨.error e, next, later, n,
        Step.perform_bind_of_error hHere,
        Step.perform_bind_of_error hThere, hAhead, hBeyond,
        hNext⟩
  | ok a =>
    rcases hAfter a next later more
      (hAhead.fault.trans hFault) (hBeyond.fault.trans hOther)
      hNext with
      ⟨hMore, hCut⟩ |
      ⟨result, last, beyond, m, hLast, hFar, hMoved, hPast,
        hEnd⟩
    · left
      exact ⟨hMore, hCut.behind hHere⟩
    · right
      exact
        ⟨result, last, beyond, n + m,
          (Step.perform_bind_of_ok hHere).trans hLast,
          (Step.perform_bind_of_ok hThere).trans hFar,
          hAhead.trans hMoved, hBeyond.trans hPast, hEnd⟩

theorem Stable.map
    {reading : Reading α}
    (f : α → β)
    (hReading : reading.Stable) :
    (f <$> reading : Reading β).Stable := by
  have hBind :
      (reading >>= fun a => pure (f a) : Reading β).Stable :=
    hReading.bind fun a => stable_pure (f a)
  exact hBind

/-
  What is recorded is the same, since no reading moves over
  bytes that one of the two sources lacks.
-/
theorem Stable.recorded
    {reading : Reading α}
    (hReading : reading.Stable) :
    reading.recorded.Stable := by
  intro source other more hFault hOther hRest
  have hGet (s : Source) :
      (get : Reading Source).perform s = (.ok s, s) :=
    Step.perform_get s
  unfold Reading.recorded
  rcases hReading source other more hFault hOther hRest with
    ⟨hMore, hCut⟩ |
    ⟨result, next, later, n, hHere, hThere, hAhead, hBeyond,
      hNext⟩
  · left
    refine ⟨hMore, Step.Truncates.behind ?_ (hGet source)⟩
    exact hCut.bind
  right
  refine
    ⟨result.map fun a => (a, source.rest.take n), next, later, n,
      ?_, ?_, hAhead, hBeyond, hNext⟩
  · rw [Step.perform_bind_of_ok (hGet source)]
    cases result with
    | error e => exact Step.perform_bind_of_error hHere
    | ok a =>
      rw [Step.perform_bind_of_ok hHere,
        Step.perform_bind_of_ok (hGet next), hAhead.position,
        Nat.add_sub_cancel_left]
      rfl
  · have hTake : other.rest.take n = source.rest.take n := by
      have hDrop := hBeyond.rest
      rw [hNext, hAhead.rest, hRest] at hDrop
      have hBoth : source.rest.take n ++ source.rest.drop n ++
          more = other.rest.take n ++ other.rest.drop n := by
        rw [List.take_append_drop, List.take_append_drop, hRest]
      rw [← hRest] at hDrop
      rw [List.append_assoc, hDrop] at hBoth
      exact (List.append_cancel_right hBoth).symm
    rw [Step.perform_bind_of_ok (hGet other)]
    cases result with
    | error e => exact Step.perform_bind_of_error hThere
    | ok a =>
      rw [Step.perform_bind_of_ok hThere,
        Step.perform_bind_of_ok (hGet later), hBeyond.position,
        Nat.add_sub_cancel_left, hTake]
      rfl

------------------------------------------------------------
-- Single Readings
------------------------------------------------------------

/- Too few bytes are reported as a cut. -/
theorem stable_exactly
    (cut : Cut)
    (n : Nat) :
    (exactly (.truncated cut) n).Stable := by
  intro source other more hFault hOther hRest
  rcases perform_exactly (.truncated cut) n source hFault with
    ⟨next, hHere, hAhead⟩
  rcases perform_exactly (.truncated cut) n other hOther with
    ⟨later, hThere, hBeyond⟩
  by_cases hMore : more = []
  · rw [hMore, List.append_nil] at hRest
    rw [hRest] at hThere hBeyond
    right
    refine ⟨_, next, later, _, hHere, hThere, hAhead, hBeyond, ?_⟩
    rw [hBeyond.rest, hAhead.rest, hRest, hMore, List.append_nil]
  by_cases hShort : source.rest.length < n
  · rw [if_pos hShort] at hHere
    left
    exact ⟨hMore, cut, next, hHere⟩
  · have hLong := Nat.le_of_not_lt hShort
    have hTake : other.rest.take n = source.rest.take n := by
      rw [hRest, List.take_append_of_le_length hLong]
    have hEnough : ¬ other.rest.length < n := by
      rw [hRest, List.length_append]
      omega
    rw [if_neg hShort] at hHere
    rw [if_neg hEnough, hTake] at hThere
    rw [hTake] at hBeyond
    right
    refine ⟨_, next, later, _, hHere, hThere, hAhead, hBeyond, ?_⟩
    rw [hBeyond.rest, hAhead.rest, hRest,
      List.drop_append_of_le_length]
    rw [List.length_take]
    exact Nat.min_le_right _ _

theorem stable_number
    (cut : Cut)
    (width : Nat) :
    (number (.truncated cut) width).Stable :=
  (stable_exactly cut width).map Bytes.ofBigEndian

------------------------------------------------------------
-- Starved Readings
------------------------------------------------------------

/-
  A reading that needs some bytes is cut short wherever there
  are fewer of them.
-/
def Starves
    (reading : Reading α)
    (bs : Bytes) : Prop :=
  ∀ (source : Source) (more : Bytes),
    source.fault = none →
    more ≠ [] →
    source.rest ++ more = bs →
      Step.Truncates reading source

/- A stable reading needs all bytes that it consumes. -/
theorem Stable.starves
    {reading : Reading α}
    {bs : Bytes}
    {a : α}
    (hReading : reading.Stable)
    (hConsumes : reading.Consumes bs a) :
    reading.Starves bs := by
  intro source more hFault hMore hRest
  have hWhole : (Source.ofBytes bs).rest = bs := List.drop_zero
  rcases hReading source (.ofBytes bs) more hFault rfl
    (hWhole.trans hRest.symm) with
    ⟨_, hCut⟩ | ⟨_, next, later, n, _, hThere, _, hBeyond, hNext⟩
  · exact hCut
  · exfalso
    rcases hConsumes (.ofBytes bs) [] rfl
      (hWhole.trans (List.append_nil bs).symm) with
      ⟨final, hFinal, hMoved⟩
    rw [hThere] at hFinal
    cases hFinal
    have hNone : later.rest = [] :=
      hMoved.rest_of_eq (hWhole.trans (List.append_nil bs).symm)
        rfl
    rw [hNone] at hNext
    exact hMore (List.append_eq_nil_iff.mp hNext.symm).2

/-
  Bytes that are missing at the end of two parts are missing
  in the first part, or at the end of the second one.
-/
theorem cut_of_append
    {rest more front back : Bytes}
    (h : rest ++ more = front ++ back) :
    (∃ missing, missing ≠ [] ∧ rest ++ missing = front) ∨
      ∃ left, rest = front ++ left ∧ left ++ more = back := by
  rcases List.append_eq_append_iff.mp h with
    ⟨missing, hFront, hMore⟩ | ⟨left, hRest, hBack⟩
  · by_cases hNone : missing = []
    · right
      subst hNone
      rw [List.append_nil] at hFront
      exact ⟨[], by rw [hFront, List.append_nil], hMore⟩
    · left
      exact ⟨missing, hNone, hFront.symm⟩
  · right
    exact ⟨left, hRest, hBack.symm⟩

/- A reading starves the state whose part is its source. -/
theorem Starves.within
    {σ : Type}
    {part : σ → Source}
    {replace : Source → σ → σ}
    {reading : Reading α}
    {bs more : Bytes}
    (hReading : reading.Starves bs)
    (s : σ)
    (hFault : (part s).fault = none)
    (hMore : more ≠ [])
    (hRest : (part s).rest ++ more = bs) :
    Step.Truncates (Step.within part replace reading) s := by
  rcases hReading (part s) more hFault hMore hRest with
    ⟨cut, source, hCut⟩
  exact ⟨cut, replace source s, by simp [hCut]⟩

end Reading

end SplitStream
