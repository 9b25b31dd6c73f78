import SplitStream.Proofs.Source.Consumption
import SplitStream.Reader.Basic

/-
  Readings of any source, also of one that fails. A reading
  never goes back, and what it fails for is never a matter of
  what a frame holds: such errors come from decoding.

  Main declarations:
    * `Error.isDecoding`
    * `Source.Exhausted`
    * `Source.gatherFrom_spec`
    * `Reading.Onward`
    * `Reading.Onward.bind`
    * `Reading.Onward.recorded`
    * `Reading.onward_exactly`
    * `Reading.remaining_of_frameStart`
    * `Reading.exhausted_of_frameStart`
-/

------------------------------------------------------------
-- Sources That Are Read Up
------------------------------------------------------------

namespace SplitStream

/-
  The errors of decoding: the codec refuses a payload or
  unpacks it to another length, or a checksum of a frame is
  not that of its bytes.
-/
def Error.isDecoding : Error → Bool
  | .codec _ _ => true
  | .lengthMismatch _ _ => true
  | .checksumMismatch _ _ _ _ => true
  | _ => false

namespace Source

/-
  Nothing is left of a source, and asking for more does not
  fail.
-/
structure Exhausted
    (source : Source) : Prop where
  rest : source.rest = []
  quiet : source.failure? = none

/- Further answers neither add bytes nor fail. -/
theorem Exhausted.of_ahead
    {source next : Source}
    (h : source.Exhausted)
    (hAhead : source.Ahead next 0) :
    next.Exhausted := by
  constructor
  · rw [hAhead.rest, h.rest, List.drop_nil]
  · have hQuiet := h.quiet
    unfold failure? at hQuiet ⊢
    rw [hAhead.fault, hAhead.position, Nat.add_zero]
    exact hQuiet

/- What lies ahead is not more than there was. -/
theorem Ahead.remaining_le
    {source next : Source}
    {n : Nat}
    (h : source.Ahead next n) :
    next.remaining ≤ source.remaining := by
  rw [remaining_eq, remaining_eq, h.rest, List.length_drop]
  omega

/- Every answer comes from the position on. -/
theorem ahead_of_request
    {source next : Source}
    {n : Nat}
    {answer : Answer}
    (h : source.request n = (answer, next)) :
    ∃ m, source.Ahead next m := by
  unfold request at h
  split at h
  · cases h
    exact ⟨0, rfl, rfl, rfl⟩
  · split at h
    · cases h
      exact ⟨0, rfl, rfl, rfl⟩
    · cases h
      exact ⟨_, ahead_nextTurn_advance source _⟩

/- An answer holds bytes from the front of what is left. -/
theorem bytes_of_answer
    {source next : Source}
    {n : Nat}
    {bs : Bytes}
    (h : source.request n = (.bytes bs, next)) :
    source.Ahead next bs.length ∧
      bs = source.rest.take bs.length := by
  unfold request at h
  split at h
  · cases h
  · split at h
    · cases h
    · cases h
      refine ⟨ahead_nextTurn_advance source _, ?_⟩
      simp

/- An answer without bytes is given at the end only. -/
theorem exhausted_of_request
    {source next : Source}
    {n : Nat}
    (hWant : n ≠ 0)
    (h : source.request n = (.bytes [], next)) :
    source.Exhausted := by
  unfold request at h
  split at h
  · cases h
  split at h
  · cases h
  rename_i hQuiet
  refine ⟨?_, hQuiet⟩
  have hPiece := congrArg Prod.fst h
  simp only [Answer.bytes.injEq] at hPiece
  have hGrant :=
    source.schedule.grant_pos source.turn
      (Nat.pos_of_ne_zero hWant)
  have hReach :
      0 < source.reach
        (source.schedule.grant source.turn n) := by
    unfold reach
    unfold failure? at hQuiet
    cases hFault : source.fault with
    | none => exact hGrant
    | some fault =>
      simp only [hFault] at hQuiet ⊢
      split at hQuiet
      · cases hQuiet
      · omega
  rcases List.take_eq_nil_iff.mp hPiece with hZero | hRest
  · omega
  · exact hRest

/-
  What has been gathered comes from the front of the source,
  and where it is too little the source is exhausted.
-/
theorem gatherFrom_spec
    (source : Source)
    (want : Nat)
    (got : Bytes) :
    ∃ n,
      source.Ahead (source.gatherFrom want got).2 n ∧
      ∀ bs,
        (source.gatherFrom want got).1 = .ok bs →
          n ≤ source.rest.length ∧
          bs = got.reverse ++ source.rest.take n ∧
          (n < want →
            (source.gatherFrom want got).2.Exhausted) := by
  fun_induction gatherFrom source want got with
  | case1 source got =>
    refine ⟨0, .refl source, ?_⟩
    intro bs hOk
    cases hOk
    exact ⟨Nat.zero_le _, by simp, fun h => absurd h (by simp)⟩
  | case2 source want got hWant next hRequest ih =>
    have hAhead := ahead_of_interrupted hRequest
    have hRest : next.rest = source.rest := by
      simpa using hAhead.rest
    rcases ih with ⟨n, hMoved, hOk⟩
    rw [hRest] at hOk
    refine ⟨n, ?_, hOk⟩
    simpa using hAhead.trans hMoved
  | case3 source want got hWant kind next hRequest =>
    rcases ahead_of_request hRequest with ⟨n, hAhead⟩
    refine ⟨n, hAhead, ?_⟩
    intro bs hOk
    cases hOk
  | case4 source want got hWant next hRequest =>
    have hAhead := (bytes_of_answer hRequest).1
    refine ⟨0, hAhead, ?_⟩
    intro bs hOk
    cases hOk
    refine ⟨Nat.zero_le _, by simp, fun _ => ?_⟩
    exact (exhausted_of_request hWant hRequest).of_ahead hAhead
  | case5 source want got hWant b bs next hRequest ih =>
    rcases bytes_of_answer hRequest with ⟨hAhead, hFront⟩
    rcases ih with ⟨n, hMoved, hOk⟩
    refine ⟨_, hAhead.trans hMoved, ?_⟩
    intro found hFound
    rcases hOk found hFound with ⟨hLe, hBytes, hEnd⟩
    have hLength := congrArg List.length hFront
    rw [List.length_take] at hLength
    rw [hAhead.rest, List.length_drop] at hLe
    refine ⟨by omega, ?_, ?_⟩
    · rw [hBytes, List.take_add, ← hFront, hAhead.rest]
      simp
    · intro hFew
      apply hEnd
      rw [List.length_cons] at hFew
      omega

/- An exhausted source gives nothing and stays exhausted. -/
theorem gatherFrom_of_exhausted
    (source : Source)
    (want : Nat)
    (got : Bytes)
    (hEnd : source.Exhausted) :
    ∃ next,
      source.gatherFrom want got = (.ok got.reverse, next) ∧
      next.Exhausted := by
  fun_induction gatherFrom source want got with
  | case1 source got => exact ⟨source, rfl, hEnd⟩
  | case2 source want got hWant next hRequest ih =>
    exact ih (hEnd.of_ahead (ahead_of_interrupted hRequest))
  | case3 source want got hWant kind next hRequest =>
    unfold request at hRequest
    rw [hEnd.quiet] at hRequest
    split at hRequest <;> cases hRequest
  | case4 source want got hWant next hRequest =>
    exact
      ⟨next, rfl, hEnd.of_ahead (bytes_of_answer hRequest).1⟩
  | case5 source want got hWant b bs next hRequest ih =>
    have hFront := (bytes_of_answer hRequest).2
    rw [hEnd.rest, List.take_nil] at hFront
    cases hFront

end Source

------------------------------------------------------------
-- Onward Readings
------------------------------------------------------------

namespace Reading

variable {α β : Type}

/-
  A reading goes on in its source, whatever the source does,
  and an error of it is none of decoding.
-/
def Onward
    (reading : Reading α) : Prop :=
  ∀ (source next : Source) (result : Except Error α),
    reading.perform source = (result, next) →
      (∃ n, source.Ahead next n) ∧
        ∀ e, result = .error e → e.isDecoding = false

theorem onward_pure
    (a : α) :
    (pure a : Reading α).Onward := by
  intro source next result hRun
  cases hRun
  refine ⟨⟨0, .refl source⟩, ?_⟩
  intro e hError
  cases hError

theorem onward_throw
    {e : Error}
    (h : e.isDecoding = false) :
    (throw e : Reading α).Onward := by
  intro source next result hRun
  cases hRun
  refine ⟨⟨0, .refl source⟩, ?_⟩
  intro e' hError
  cases hError
  exact h

theorem Onward.bind
    {reading : Reading α}
    {after : α → Reading β}
    (hReading : reading.Onward)
    (hAfter : ∀ a, (after a).Onward) :
    (reading >>= after : Reading β).Onward := by
  intro source next result hRun
  rcases hFirst : reading.perform source with ⟨e | a, middle⟩
  · rw [Step.perform_bind_of_error hFirst] at hRun
    cases hRun
    rcases hReading source next _ hFirst with ⟨hAhead, hBlame⟩
    refine ⟨hAhead, ?_⟩
    intro e' hError
    cases hError
    exact hBlame e rfl
  · rw [Step.perform_bind_of_ok hFirst] at hRun
    rcases hReading source middle _ hFirst with
      ⟨⟨n, hAhead⟩, _⟩
    rcases hAfter a middle next result hRun with
      ⟨⟨m, hMoved⟩, hBlame⟩
    exact ⟨⟨n + m, hAhead.trans hMoved⟩, hBlame⟩

/- Looking at the source does not move it. -/
theorem Onward.get_bind
    {after : Source → Reading β}
    (hAfter : ∀ source, (after source).Onward) :
    (get >>= after : Reading β).Onward := by
  intro source next result hRun
  rw [Step.perform_bind_of_ok (Step.perform_get source)] at hRun
  exact hAfter source source next result hRun

theorem Onward.recorded
    {reading : Reading α}
    (hReading : reading.Onward) :
    reading.recorded.Onward := by
  apply Onward.get_bind
  intro before
  apply hReading.bind
  intro a
  apply Onward.get_bind
  intro after
  exact onward_pure _

------------------------------------------------------------
-- Single Readings
------------------------------------------------------------

theorem onward_upTo
    (n : Nat) :
    (upTo n).Onward := by
  intro source next result hRun
  rcases source.gatherFrom_spec n [] with ⟨m, hAhead, _⟩
  cases hRun
  refine ⟨⟨m, hAhead⟩, ?_⟩
  intro e hError
  change (source.gather n).1.mapError Error.io = .error e
    at hError
  cases hGather : (source.gather n).1 with
  | error kind =>
    rw [hGather] at hError
    cases hError
    rfl
  | ok bs =>
    rw [hGather] at hError
    cases hError

theorem onward_exactly
    (cut : Cut)
    (n : Nat) :
    (exactly (.truncated cut) n).Onward := by
  intro source next result hRun
  rcases source.gatherFrom_spec n [] with ⟨m, hAhead, _⟩
  change source.Ahead (source.gather n).2 m at hAhead
  unfold exactly at hRun
  rw [Step.perform_ofStep] at hRun
  split at hRun
  · rename_i hGather
    rw [hGather] at hAhead
    cases hRun
    refine ⟨⟨m, hAhead⟩, ?_⟩
    intro e hError
    cases hError
    rfl
  · rename_i hGather
    rw [hGather] at hAhead
    cases hRun
    refine ⟨⟨m, hAhead⟩, ?_⟩
    intro e hError
    cases hError
    rfl
  · rename_i hGather
    rw [hGather] at hAhead
    split at hRun
    · cases hRun
      refine ⟨⟨m, hAhead⟩, ?_⟩
      intro e hError
      cases hError
      rfl
    · cases hRun
      refine ⟨⟨m, hAhead⟩, ?_⟩
      intro e hError
      cases hError

------------------------------------------------------------
-- Starts Of Frames
------------------------------------------------------------

theorem onward_frameStart : frameStart.Onward := by
  unfold frameStart
  apply (onward_upTo 4).bind
  intro bs
  by_cases hEmpty : bs.isEmpty = true
  · rw [if_pos hEmpty]
    exact onward_pure _
  · rw [if_neg hEmpty]
    by_cases hLength : bs.length = 4
    · rw [if_pos hLength]
      exact onward_pure _
    · rw [if_neg hLength]
      exact onward_throw rfl

/- What a frame may start with: no byte or a whole word. -/
theorem ok_of_frameStart
    {source next : Source}
    {start : Option Nat}
    (hRun : frameStart.perform source = (.ok start, next)) :
    ∃ n,
      source.Ahead next n ∧
      n ≤ source.rest.length ∧
      (start = none → next.Exhausted) ∧
      (∀ plain, start = some plain → n = 4) := by
  rcases source.gatherFrom_spec 4 [] with ⟨n, hAhead, hOk⟩
  change source.Ahead (source.gather 4).2 n at hAhead
  change ∀ bs, (source.gather 4).1 = _ → _ at hOk
  have hUpTo :
      (upTo 4).perform source =
        ((source.gather 4).1.mapError .io,
          (source.gather 4).2) :=
    rfl
  rcases hGather : (source.gather 4).1 with kind | bs
  · rw [hGather] at hUpTo
    rw [frameStart, Step.perform_bind_of_error hUpTo] at hRun
    cases hRun
  rw [hGather] at hUpTo
  rcases hOk bs hGather with ⟨hLe, hBytes, hEnd⟩
  rw [List.reverse_nil, List.nil_append] at hBytes
  subst hBytes
  rw [frameStart, Step.perform_bind_of_ok hUpTo] at hRun
  have hLength : (source.rest.take n).length = n := by
    rw [List.length_take]
    omega
  by_cases hEmpty : (source.rest.take n).isEmpty = true
  · rw [if_pos hEmpty] at hRun
    cases hRun
    have hZero : n = 0 := by
      rw [List.isEmpty_iff.mp hEmpty] at hLength
      exact hLength.symm
    refine ⟨n, hAhead, hLe, fun _ => ?_, by simp⟩
    apply hEnd
    omega
  · rw [if_neg hEmpty] at hRun
    by_cases hFour : (source.rest.take n).length = 4
    · rw [if_pos hFour] at hRun
      cases hRun
      refine ⟨n, hAhead, hLe, by simp, fun _ _ => ?_⟩
      omega
    · rw [if_neg hFour] at hRun
      cases hRun

/- A word in front of a frame is taken from the source. -/
theorem remaining_of_frameStart
    {source next : Source}
    {plain : Nat}
    (hRun :
      frameStart.perform source = (.ok (some plain), next)) :
    next.remaining < source.remaining := by
  rcases ok_of_frameStart hRun with ⟨n, hAhead, hLe, _, hWord⟩
  have hFour := hWord plain rfl
  rw [Source.remaining_eq, Source.remaining_eq, hAhead.rest,
    List.length_drop]
  omega

theorem exhausted_of_frameStart
    {source next : Source}
    (hRun : frameStart.perform source = (.ok none, next)) :
    next.Exhausted := by
  rcases ok_of_frameStart hRun with ⟨_, _, _, hEnd, _⟩
  exact hEnd rfl

/- In an exhausted source there is no frame. -/
theorem perform_frameStart_of_exhausted
    {source : Source}
    (hEnd : source.Exhausted) :
    ∃ next,
      frameStart.perform source = (.ok none, next) ∧
      next.Exhausted := by
  rcases source.gatherFrom_of_exhausted 4 [] hEnd with
    ⟨next, hGather, hNext⟩
  change source.gather 4 = _ at hGather
  have hUpTo : (upTo 4).perform source = (.ok [], next) := by
    simp only [upTo, Step.perform_ofStep, hGather]
    rfl
  exact ⟨next, Step.perform_bind_of_ok hUpTo, hNext⟩

end Reading

end SplitStream
