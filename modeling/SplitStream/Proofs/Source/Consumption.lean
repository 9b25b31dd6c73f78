import SplitStream.Source

/-
  Readings seen from the bytes they consume. A source that
  does not fail hands out the same bytes whatever its
  schedule, so a reading is described by the bytes it takes
  from the front of the source and by its result.

  Main declarations:
    * `Source.Ahead`
    * `Source.gather_eq`
    * `Reading.Consumes`
    * `Reading.Consumes.bind`
    * `Reading.Consumes.unless`
    * `Reading.Consumes.choose`
    * `Reading.perform_upTo`
    * `Reading.perform_exactly`
-/

------------------------------------------------------------
-- Sources Ahead Of Sources
------------------------------------------------------------

namespace SplitStream

namespace Source

/-
  A source stands `n` bytes ahead of another one. The
  schedule may have advanced by any number of answers.
-/
structure Ahead
    (source next : Source)
    (n : Nat) : Prop where
  content : next.content = source.content
  fault : next.fault = source.fault
  position : next.position = source.position + n

namespace Ahead

variable {source middle next : Source} {m n : Nat}

theorem refl
    (source : Source) :
    source.Ahead source 0 :=
  ⟨rfl, rfl, rfl⟩

theorem trans
    (hFirst : source.Ahead middle m)
    (hSecond : middle.Ahead next n) :
    source.Ahead next (m + n) := by
  refine
    ⟨hSecond.content.trans hFirst.content,
      hSecond.fault.trans hFirst.fault, ?_⟩
  rw [hSecond.position, hFirst.position, Nat.add_assoc]

/- What is left ahead is what follows the consumed bytes. -/
theorem rest
    (h : source.Ahead next n) :
    next.rest = source.rest.drop n := by
  rw [next.rest_eq, source.rest_eq, h.content, h.position,
    List.drop_drop]

theorem rest_of_eq
    (h : source.Ahead next n)
    {bs tail : Bytes}
    (hRest : source.rest = bs ++ tail)
    (hLength : bs.length = n) :
    next.rest = tail := by
  rw [h.rest, hRest, ← hLength, List.drop_left]

theorem size
    (h : source.Ahead next n) :
    next.size = source.size := by
  rw [next.size_eq, source.size_eq, h.content]

end Ahead

/- A source is moved to any position, and nothing else. -/
theorem seek_spec
    (source : Source)
    (n : Nat) :
    (source.seek n).content = source.content ∧
      (source.seek n).fault = source.fault ∧
      (source.seek n).position = n := by
  unfold seek
  split
  · exact ⟨rfl, rfl, rfl⟩
  · exact ⟨rfl, rfl, rfl⟩

theorem rest_seek
    (source : Source)
    (n : Nat) :
    (source.seek n).rest = source.content.drop n := by
  rcases source.seek_spec n with ⟨hContent, _, hPosition⟩
  rw [(source.seek n).rest_eq, hContent, hPosition]

------------------------------------------------------------
-- Gathering
------------------------------------------------------------

theorem ahead_nextTurn_advance
    (source : Source)
    (n : Nat) :
    source.Ahead (source.nextTurn.advance n) n :=
  ⟨rfl, rfl, rfl⟩

/- An interruption moves nothing. -/
theorem ahead_of_interrupted
    {source next : Source}
    {n : Nat}
    (h : source.request n = (.interrupted, next)) :
    source.Ahead next 0 := by
  unfold request at h
  split at h
  · simp only [Prod.mk.injEq, true_and] at h
    subst h
    exact ⟨rfl, rfl, rfl⟩
  · split at h <;> simp at h

/-
  An answer with bytes holds bytes from the front, and none
  only if none are left.
-/
theorem bytes_of_request
    {source next : Source}
    {n : Nat}
    {bs : Bytes}
    (hFault : source.fault = none)
    (hWant : n ≠ 0)
    (h : source.request n = (.bytes bs, next)) :
    source.Ahead next bs.length ∧
      bs.length ≤ n ∧
      bs = source.rest.take bs.length ∧
      (bs = [] → source.rest = []) := by
  unfold request failure? reach at h
  simp only [hFault] at h
  split at h
  · simp at h
  · simp only [Prod.mk.injEq, Answer.bytes.injEq] at h
    rcases h with ⟨rfl, rfl⟩
    have hGrant := source.schedule.grant_pos source.turn
      (Nat.pos_of_ne_zero hWant)
    have hLe : source.schedule.grant source.turn n ≤ n := by
      unfold Schedule.grant
      split <;> omega
    refine
      ⟨ahead_nextTurn_advance source _, ?_, ?_, ?_⟩
    · rw [List.length_take]
      omega
    · simp
    · intro hNil
      rcases List.take_eq_nil_iff.mp hNil with hZero | hRest
      · omega
      · exact hRest

/- A source that does not fail never answers with a failure. -/
theorem request_ne_failed
    {source next : Source}
    {n : Nat}
    {kind : IoKind}
    (hFault : source.fault = none) :
    source.request n ≠ (.failed kind, next) := by
  unfold request failure?
  simp only [hFault]
  split <;> simp

/-
  Gathering takes the wanted bytes from the front, or all
  that are left.
-/
theorem gatherFrom_eq
    (source : Source)
    (want : Nat)
    (got : Bytes)
    (hFault : source.fault = none) :
    ∃ next,
      source.gatherFrom want got =
        (.ok (got.reverse ++ source.rest.take want), next) ∧
      source.Ahead next (source.rest.take want).length := by
  fun_induction gatherFrom source want got with
  | case1 source got =>
    exact ⟨source, by simp, by simpa using Ahead.refl source⟩
  | case2 source want got hWant next hRequest ih =>
    have hAhead := ahead_of_interrupted hRequest
    rcases ih (hAhead.fault.trans hFault) with
      ⟨final, hFinal, hMoved⟩
    have hRest : next.rest = source.rest := by
      simpa using hAhead.rest
    rw [hRest] at hFinal hMoved
    exact ⟨final, hFinal, by simpa using hAhead.trans hMoved⟩
  | case3 source want got hWant kind next hRequest =>
    exact absurd hRequest (request_ne_failed hFault)
  | case4 source want got hWant next hRequest =>
    rcases bytes_of_request hFault hWant hRequest with
      ⟨hAhead, _, _, hNil⟩
    have hRest : source.rest = [] := hNil rfl
    exact ⟨next, by simp [hRest], by simpa [hRest] using hAhead⟩
  | case5 source want got hWant b bs next hRequest ih =>
    rcases bytes_of_request hFault hWant hRequest with
      ⟨hAhead, hLe, hFront, _⟩
    rcases ih (hAhead.fault.trans hFault) with
      ⟨final, hFinal, hMoved⟩
    have hTake :
        source.rest.take want =
          b :: bs ++ next.rest.take (want - (bs.length + 1)) := by
      calc source.rest.take want
          = source.rest.take
              ((b :: bs).length + (want - (bs.length + 1))) := by
            rw [← Nat.add_sub_cancel' hLe]
            simp
        _ = b :: bs ++ next.rest.take (want - (bs.length + 1)) := by
            rw [List.take_add, ← hFront, hAhead.rest]
    refine ⟨final, ?_, ?_⟩
    · rw [hFinal, hTake]
      simp [List.reverseAux_eq]
    · rw [hTake, List.length_append]
      exact hAhead.trans hMoved

theorem gather_eq
    (source : Source)
    (want : Nat)
    (hFault : source.fault = none) :
    ∃ next,
      source.gather want =
        (.ok (source.rest.take want), next) ∧
      source.Ahead next (source.rest.take want).length := by
  simpa [gather] using gatherFrom_eq source want [] hFault

end Source

------------------------------------------------------------
-- Readings
------------------------------------------------------------

namespace Reading

variable {α β : Type}

/-
  A reading consumes exactly the given bytes from every
  source that goes on with them, and returns the result.
-/
def Consumes
    (reading : Reading α)
    (bs : Bytes)
    (a : α) : Prop :=
  ∀ (source : Source) (tail : Bytes),
    source.fault = none →
    source.rest = bs ++ tail →
      ∃ next,
        reading.perform source = (.ok a, next) ∧
        source.Ahead next bs.length

theorem consumes_pure
    (a : α) :
    (pure a : Reading α).Consumes [] a :=
  fun source _ _ _ =>
    ⟨source, rfl, .refl source⟩

/- Readings in sequence consume their bytes in sequence. -/
theorem Consumes.bind
    {reading : Reading α}
    {after : α → Reading β}
    {bs cs : Bytes}
    {a : α}
    {b : β}
    (hReading : reading.Consumes bs a)
    (hAfter : (after a).Consumes cs b) :
    (reading >>= after : Reading β).Consumes (bs ++ cs) b := by
  intro source tail hFault hRest
  rw [List.append_assoc] at hRest
  rcases hReading source (cs ++ tail) hFault hRest with
    ⟨middle, hMiddle, hAhead⟩
  rcases hAfter middle tail (hAhead.fault.trans hFault)
    (hAhead.rest_of_eq hRest rfl) with
    ⟨next, hNext, hMoved⟩
  refine ⟨next, ?_, ?_⟩
  · rw [Step.perform_bind, hMiddle]
    exact hNext
  · rw [List.length_append]
    exact hAhead.trans hMoved

/- The last part of a sequence may consume nothing. -/
theorem Consumes.bind_nil
    {reading : Reading α}
    {after : α → Reading β}
    {bs : Bytes}
    {a : α}
    {b : β}
    (hReading : reading.Consumes bs a)
    (hAfter : (after a).Consumes [] b) :
    (reading >>= after : Reading β).Consumes bs b := by
  have hBind := hReading.bind hAfter
  rw [List.append_nil] at hBind
  exact hBind

theorem Consumes.map
    {reading : Reading α}
    {bs : Bytes}
    {a : α}
    (f : α → β)
    (hReading : reading.Consumes bs a) :
    (f <$> reading : Reading β).Consumes bs (f a) := by
  have hBind :
      (reading >>= fun a => pure (f a) :
        Reading β).Consumes bs (f a) :=
    hReading.bind_nil (consumes_pure (f a))
  exact hBind

/- What is recorded are the bytes that are consumed. -/
theorem Consumes.recorded
    {reading : Reading α}
    {bs : Bytes}
    {a : α}
    (hReading : reading.Consumes bs a) :
    reading.recorded.Consumes bs (a, bs) := by
  intro source tail hFault hRest
  rcases hReading source tail hFault hRest with
    ⟨next, hNext, hAhead⟩
  have hMoved : next.position - source.position = bs.length := by
    rw [hAhead.position, Nat.add_sub_cancel_left]
  refine ⟨next, ?_, hAhead⟩
  simp only [Reading.recorded, Step.perform_bind,
    Step.perform_get, Step.perform_pure, hNext]
  rw [hMoved, hRest, List.take_left]

/- A reading moves the source that is part of a state. -/
theorem Consumes.within
    {σ : Type}
    {part : σ → Source}
    {replace : Source → σ → σ}
    {reading : Reading α}
    {bs tail : Bytes}
    {a : α}
    (hReading : reading.Consumes bs a)
    (s : σ)
    (hFault : (part s).fault = none)
    (hRest : (part s).rest = bs ++ tail) :
    ∃ source,
      (Step.within part replace reading).perform s =
        (.ok a, replace source s) ∧
      (part s).Ahead source bs.length := by
  rcases hReading (part s) tail hFault hRest with
    ⟨source, hSource, hAhead⟩
  exact ⟨source, by simp [hSource], hAhead⟩

/- A refusal whose condition does not hold is passed. -/
theorem Consumes.unless
    {condition : Prop}
    [Decidable condition]
    {e : Error}
    {after : Unit → Reading β}
    {bs : Bytes}
    {b : β}
    (hCondition : ¬ condition)
    (hAfter : (after ()).Consumes bs b) :
    Consumes
      (have jump := after
       if condition then
        (throw e : Reading Unit) >>= jump
      else
        jump ())
      bs b := by
  simpa [hCondition] using hAfter

/- Two ways to the same continuation are one reading. -/
theorem Consumes.choose
    {condition : Prop}
    [Decidable condition]
    {left right : Reading α}
    {after : α → Reading β}
    {bs cs : Bytes}
    {a : α}
    {b : β}
    (hReading :
      (if condition then left else right).Consumes bs a)
    (hAfter : (after a).Consumes cs b) :
    Consumes
      (have jump := after
       if condition then left >>= jump else right >>= jump)
      (bs ++ cs) b := by
  by_cases hCondition : condition
  · simp only [hCondition, if_true] at hReading ⊢
    exact hReading.bind hAfter
  · simp only [hCondition, if_false] at hReading ⊢
    exact hReading.bind hAfter

theorem perform_seek
    (position : Nat)
    (source : Source) :
    (seek position).perform source =
      (.ok ⟨⟩, source.seek position) :=
  rfl

/- Reading up to `n` bytes never fails. -/
theorem perform_upTo
    (source : Source)
    (n : Nat)
    (hFault : source.fault = none) :
    ∃ next,
      (upTo n).perform source =
        (.ok (source.rest.take n), next) ∧
      source.Ahead next (source.rest.take n).length := by
  rcases source.gather_eq n hFault with ⟨next, hGather, hAhead⟩
  refine ⟨next, ?_, hAhead⟩
  simp only [upTo, Step.perform_ofStep, hGather]
  rfl

theorem consumes_upTo
    {n : Nat}
    {bs : Bytes}
    (hLength : bs.length = n) :
    (upTo n).Consumes bs bs := by
  intro source tail hFault hRest
  rcases perform_upTo source n hFault with ⟨next, hNext, hAhead⟩
  have hTake : source.rest.take n = bs := by
    rw [hRest, ← hLength, List.take_left]
  rw [hTake] at hNext hAhead
  exact ⟨next, hNext, hAhead⟩

/- Reading a number of bytes fails where there are fewer. -/
theorem perform_exactly
    (short : Error)
    (n : Nat)
    (source : Source)
    (hFault : source.fault = none) :
    ∃ next,
      (exactly short n).perform source =
        (if source.rest.length < n then
            .error short
          else
            .ok (source.rest.take n),
          next) ∧
      source.Ahead next (source.rest.take n).length := by
  rcases source.gather_eq n hFault with ⟨next, hGather, hAhead⟩
  refine ⟨next, ?_, hAhead⟩
  have hFew :
      (source.rest.take n).length < n ↔
        source.rest.length < n := by
    rw [List.length_take]
    omega
  simp only [exactly, Step.perform_ofStep, hGather, hFew]
  split
  · rfl
  · rfl

theorem consumes_exactly
    (short : Error)
    {n : Nat}
    {bs : Bytes}
    (hLength : bs.length = n) :
    (exactly short n).Consumes bs bs := by
  intro source tail hFault hRest
  rcases perform_exactly short n source hFault with
    ⟨next, hNext, hAhead⟩
  have hTake : source.rest.take n = bs := by
    rw [hRest, ← hLength, List.take_left]
  have hEnough : ¬ source.rest.length < n := by
    rw [hRest, List.length_append]
    omega
  rw [if_neg hEnough, hTake] at hNext
  rw [hTake] at hAhead
  exact ⟨next, hNext, hAhead⟩

theorem consumes_number
    (short : Error)
    {width n : Nat}
    (h : n < Bytes.wordCount width) :
    (number short width).Consumes (Bytes.bigEndian width n) n := by
  have hRead :=
    (consumes_exactly short (Bytes.length_bigEndian width n)).map
      Bytes.ofBigEndian
  rw [Bytes.ofBigEndian_bigEndian_of_lt h] at hRead
  exact hRead

theorem consumes_word
    (short : Error)
    (w : UInt32) :
    (word short).Consumes (Bytes.bigEndian 4 w.toNat) w := by
  have hFits : w.toNat < Bytes.wordCount 4 := w.toNat_lt
  have hRead := (consumes_number short hFits).map UInt32.ofNat
  rw [UInt32.ofNat_toNat] at hRead
  exact hRead

end Reading

end SplitStream
