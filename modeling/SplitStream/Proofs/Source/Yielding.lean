import SplitStream.Proofs.Source.Consumption

/-
  Readings seen from what they return. Whatever a reading
  returns from a source that does not fail, it has found at
  the front of the source.

  Main declarations:
    * `Reading.Yields`
    * `Reading.Yields.bind`
    * `Reading.Yields.andThen`
    * `Reading.Yields.unless`
    * `Reading.Yields.choose`
    * `Reading.Yields.recorded`
    * `Reading.yields_exactly`
    * `Reading.yields_number`
    * `Reading.yields_word`
-/

------------------------------------------------------------
-- Yielding
------------------------------------------------------------

namespace SplitStream

namespace Reading

variable {α β : Type}

/-
  A reading that succeeds has moved over bytes that stand for
  its result.
-/
def Yields
    (reading : Reading α)
    (StandsFor : Bytes → α → Prop) : Prop :=
  ∀ (source next : Source) (a : α),
    source.fault = none →
    reading.perform source = (.ok a, next) →
      ∃ bs,
        StandsFor bs a ∧
        source.rest = bs ++ next.rest ∧
        source.Ahead next bs.length

theorem yields_pure
    (a : α) :
    (pure a : Reading α).Yields fun bs b => bs = [] ∧ b = a := by
  intro source next b _ hPure
  cases hPure
  exact ⟨[], ⟨rfl, rfl⟩, rfl, .refl source⟩

/- What a sequence returns is made of what its parts return. -/
theorem Yields.bind
    {reading : Reading α}
    {after : α → Reading β}
    {First : Bytes → α → Prop}
    {Second : α → Bytes → β → Prop}
    (hReading : reading.Yields First)
    (hAfter : ∀ a, (after a).Yields (Second a)) :
    (reading >>= after : Reading β).Yields fun bs b =>
      ∃ front back a,
        bs = front ++ back ∧ First front a ∧ Second a back b := by
  intro source next b hFault hRun
  rcases Step.ok_of_perform_bind hRun with
    ⟨a, middle, hFirst, hSecond⟩
  rcases hReading source middle a hFault hFirst with
    ⟨front, hFront, hRest, hAhead⟩
  rcases hAfter a middle next b (hAhead.fault.trans hFault)
    hSecond with ⟨back, hBack, hMore, hMoved⟩
  refine
    ⟨front ++ back, ⟨front, back, a, rfl, hFront, hBack⟩, ?_, ?_⟩
  · rw [hRest, hMore, List.append_assoc]
  · rw [List.length_append]
    exact hAhead.trans hMoved

/- The same bytes may stand for a result in another way. -/
theorem Yields.mono
    {reading : Reading α}
    {First Second : Bytes → α → Prop}
    (hReading : reading.Yields First)
    (hWeaken : ∀ bs a, First bs a → Second bs a) :
    reading.Yields Second := by
  intro source next a hFault hRun
  rcases hReading source next a hFault hRun with
    ⟨bs, hFirst, hRest, hAhead⟩
  exact ⟨bs, hWeaken bs a hFirst, hRest, hAhead⟩

theorem Yields.map
    {reading : Reading α}
    {First : Bytes → α → Prop}
    (f : α → β)
    (hReading : reading.Yields First) :
    (f <$> reading : Reading β).Yields fun bs b =>
      ∃ a, First bs a ∧ b = f a := by
  have hBind :
      (reading >>= fun a => pure (f a) : Reading β).Yields _ :=
    hReading.bind fun a => yields_pure (f a)
  apply Yields.mono hBind
  rintro bs b ⟨front, back, a, rfl, hFirst, rfl, rfl⟩
  rw [List.append_nil]
  exact ⟨a, hFirst, rfl⟩

------------------------------------------------------------
-- Whole Sequences
------------------------------------------------------------

/-
  What the last step adds is judged together with the bytes
  before it.
-/
theorem Yields.andThen
    {reading : Reading α}
    {after : α → Reading β}
    {First : Bytes → α → Prop}
    {Whole : Bytes → β → Prop}
    (hReading : reading.Yields First)
    (hAfter :
      ∀ front a,
        First front a →
          (after a).Yields fun back b => Whole (front ++ back) b) :
    (reading >>= after : Reading β).Yields Whole := by
  intro source next b hFault hRun
  rcases Step.ok_of_perform_bind hRun with
    ⟨a, middle, hFirst, hSecond⟩
  rcases hReading source middle a hFault hFirst with
    ⟨front, hFront, hRest, hAhead⟩
  rcases hAfter front a hFront middle next b
    (hAhead.fault.trans hFault) hSecond with
    ⟨back, hWhole, hMore, hMoved⟩
  refine ⟨front ++ back, hWhole, ?_, ?_⟩
  · rw [hRest, hMore, List.append_assoc]
  · rw [List.length_append]
    exact hAhead.trans hMoved

/- A sequence ends without reading more. -/
theorem yields_return
    {a : α}
    {Whole : Bytes → α → Prop}
    (h : Whole [] a) :
    (pure a : Reading α).Yields Whole := by
  apply (yields_pure a).mono
  rintro bs b ⟨rfl, rfl⟩
  exact h

/- A refusal is passed only if its condition does not hold. -/
theorem Yields.unless
    {condition : Prop}
    [Decidable condition]
    {e : Error}
    {after : Unit → Reading β}
    {Whole : Bytes → β → Prop}
    (hAfter : ¬ condition → (after ()).Yields Whole) :
    Yields
      (have jump := after
       if condition then
        (throw e : Reading Unit) >>= jump
      else
        jump ())
      Whole := by
  intro source next b hFault hRun
  rcases Step.ok_of_perform_unless hRun with ⟨hPassed, hRest⟩
  exact hAfter hPassed source next b hFault hRest

/- Two ways to the same continuation are one reading. -/
theorem Yields.choose
    {condition : Prop}
    [Decidable condition]
    {left right : Reading α}
    {after : α → Reading β}
    {First : Bytes → α → Prop}
    {Whole : Bytes → β → Prop}
    (hReading :
      (if condition then left else right).Yields First)
    (hAfter :
      ∀ front a,
        First front a →
          (after a).Yields fun back b => Whole (front ++ back) b) :
    Yields
      (have jump := after
       if condition then left >>= jump else right >>= jump)
      Whole := by
  by_cases hCondition : condition
  · simp only [hCondition, if_true] at hReading ⊢
    exact hReading.andThen hAfter
  · simp only [hCondition, if_false] at hReading ⊢
    exact hReading.andThen hAfter

/- What is recorded are the bytes that were moved over. -/
theorem Yields.recorded
    {reading : Reading α}
    {StandsFor : Bytes → α → Prop}
    (hReading : reading.Yields StandsFor) :
    reading.recorded.Yields fun bs found =>
      ∃ a, found = (a, bs) ∧ StandsFor bs a := by
  rintro source next ⟨a, recorded⟩ hFault hRun
  rcases Step.ok_of_perform_bind hRun with ⟨_, _, hGet, hMore⟩
  cases hGet
  rcases Step.ok_of_perform_bind hMore with
    ⟨b, middle, hRead, hLast⟩
  cases hLast
  rcases hReading source next a hFault hRead with
    ⟨bs, hStands, hRest, hAhead⟩
  have hMoved : next.position - source.position = bs.length := by
    rw [hAhead.position, Nat.add_sub_cancel_left]
  refine ⟨bs, ⟨a, ?_, hStands⟩, hRest, hAhead⟩
  rw [hMoved, hRest, List.take_left]

/- A reading moves the source that is part of a state. -/
theorem Yields.within
    {σ : Type}
    {part : σ → Source}
    {replace : Source → σ → σ}
    {reading : Reading α}
    {StandsFor : Bytes → α → Prop}
    {s t : σ}
    {a : α}
    (hReading : reading.Yields StandsFor)
    (hFault : (part s).fault = none)
    (hRun :
      (Step.within part replace reading).perform s =
        (.ok a, t)) :
    ∃ source bs,
      t = replace source s ∧
      StandsFor bs a ∧
      (part s).rest = bs ++ source.rest ∧
      (part s).Ahead source bs.length := by
  rcases Prod.mk.inj hRun with ⟨hResult, rfl⟩
  rcases hReading (part s) _ a hFault (Prod.ext hResult rfl) with
    ⟨bs, hBytes, hRest, hAhead⟩
  exact ⟨_, bs, rfl, hBytes, hRest, hAhead⟩

------------------------------------------------------------
-- Single Readings
------------------------------------------------------------

theorem yields_exactly
    (short : Error)
    (n : Nat) :
    (exactly short n).Yields fun bs a =>
      bs = a ∧ a.length = n := by
  intro source next a hFault hRun
  rcases perform_exactly short n source hFault with
    ⟨moved, hExactly, hAhead⟩
  rw [hExactly] at hRun
  by_cases hShort : source.rest.length < n
  · rw [if_pos hShort] at hRun
    cases hRun
  · rw [if_neg hShort] at hRun
    cases hRun
    have hLength : (source.rest.take n).length = n := by
      rw [List.length_take]
      omega
    refine ⟨_, ⟨rfl, hLength⟩, ?_, hAhead⟩
    rw [hAhead.rest, hLength, List.take_append_drop]

theorem yields_number
    (short : Error)
    (width : Nat) :
    (number short width).Yields fun bs n =>
      bs = Bytes.bigEndian width n ∧ n < Bytes.wordCount width := by
  apply ((yields_exactly short width).map
    Bytes.ofBigEndian).mono
  rintro bs n ⟨found, ⟨rfl, hLength⟩, rfl⟩
  rw [← hLength, Bytes.bigEndian_ofBigEndian]
  exact ⟨rfl, Bytes.ofBigEndian_lt bs⟩

theorem yields_word
    (short : Error) :
    (word short).Yields fun bs w =>
      bs = Bytes.bigEndian 4 w.toNat := by
  apply ((yields_number short 4).map UInt32.ofNat).mono
  rintro bs w ⟨n, ⟨rfl, hLess⟩, rfl⟩
  rw [UInt32.toNat_ofNat_of_lt' hLess]

end Reading

end SplitStream
