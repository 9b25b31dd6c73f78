import SplitStream.Proofs.Reader.Walking

/-
  Reading of bytes in calls of any sizes. A reader owes the
  bytes that are ready and the blocks that it still delivers.
  Every call hands out some of what is owed, in order, and
  none only at the end or where the reader fails.

  Main declarations:
    * `FrameReader.Orderly`
    * `FrameReader.Owes`
    * `FrameReader.Orderly.filled_of_fillRounds`
    * `FrameReader.Hands`
    * `FrameReader.Orderly.hands_of_read`
    * `ReadCall`
    * `FrameReader.handOut`
    * `FrameReader.Leaves`
    * `FrameReader.Orderly.leaves_of_handOut`
-/

------------------------------------------------------------
-- Orderly Readers
------------------------------------------------------------

namespace SplitStream

namespace FrameReader

variable {ρ : Type} [FrameReader ρ]

/-
  A reader of frames is in order: what is ready is dropped by
  the call for the next frame, a frame takes bytes from the
  source, and the end is found again once it was found.
-/
structure Orderly
    (AtEnd : ρ → Prop) : Prop where
  staging_withStaging :
    ∀ (staged : Staging) (reader : ρ),
      staging (withStaging staged reader) = staged
  readFrame_withStaging :
    ∀ (staged : Staging) (reader : ρ),
      staged.area = (staging reader).area →
        readFrame.perform (withStaging staged reader) =
          readFrame.perform reader
  onward :
    ∀ reader next : ρ,
      readFrame.perform reader = (.ok true, next) →
        (source next).remaining < (source reader).remaining
  ended :
    ∀ reader next : ρ,
      readFrame.perform reader = (.ok false, next) →
        AtEnd next ∧ (staging next).ready = []
  ends :
    ∀ reader : ρ,
      AtEnd reader →
        ∃ next, readFrame.perform reader = (.ok false, next)

/-
  What a reader is still to hand out: the bytes that are
  ready, then the blocks up to its end or its failure.
-/
def Owes
    (reader : ρ)
    (data : Bytes)
    (failure : Option Error) : Prop :=
  ∃ blocks,
    Delivers reader blocks failure ∧
      data = (staging reader).ready ++ blocks.flatten

theorem Owes.unique
    {reader : ρ}
    {data others : Bytes}
    {failure other : Option Error}
    (h : Owes reader data failure)
    (hOther : Owes reader others other) :
    data = others ∧ failure = other := by
  rcases h with ⟨blocks, hDelivers, rfl⟩
  rcases hOther with ⟨more, hAgain, rfl⟩
  rcases hDelivers.unique hAgain with ⟨rfl, rfl⟩
  exact ⟨rfl, rfl⟩

/- Behind a frame, its block is ready and the rest is owed. -/
theorem Owes.of_frame
    {reader next : ρ}
    {data : Bytes}
    {failure : Option Error}
    (hOwes : Owes reader data failure)
    (hNone : (staging reader).ready = [])
    (hRead : readFrame.perform reader = (.ok true, next)) :
    Owes next data failure := by
  rcases hOwes with ⟨blocks, hDelivers, hData⟩
  rw [hNone, List.nil_append] at hData
  cases hDelivers with
  | ended hAgain => cases hRead.symm.trans hAgain
  | failed hAgain => cases hRead.symm.trans hAgain
  | @frame _ _ blocks _ hAgain hRest =>
    cases hRead.symm.trans hAgain
    exact ⟨blocks, hRest, hData⟩

/- At the end, nothing is owed and nothing fails. -/
theorem Owes.of_end
    {reader next : ρ}
    {data : Bytes}
    {failure : Option Error}
    (hOwes : Owes reader data failure)
    (hNone : (staging reader).ready = [])
    (hRead : readFrame.perform reader = (.ok false, next)) :
    data = [] ∧ failure = none := by
  apply hOwes.unique
  exact ⟨[], .ended hRead, by rw [hNone]; rfl⟩

/- Before a failure, nothing is owed but the failure. -/
theorem Owes.of_failure
    {reader next : ρ}
    {data : Bytes}
    {failure : Option Error}
    {e : Error}
    (hOwes : Owes reader data failure)
    (hNone : (staging reader).ready = [])
    (hRead : readFrame.perform reader = (.error e, next)) :
    data = [] ∧ failure = some e := by
  apply hOwes.unique
  exact ⟨[], .failed hRead, by rw [hNone]; rfl⟩

------------------------------------------------------------
-- Filling
------------------------------------------------------------

/- The loop over frames stops where bytes are ready. -/
theorem perform_fillRounds
    (n : Nat)
    (reader : ρ) :
    (fillRounds (n + 1)).perform reader =
      if (staging reader).ready = [] then
        match readFrame.perform reader with
        | (.error e, next) => (.error e, next)
        | (.ok true, next) => (fillRounds n).perform next
        | (.ok false, next) => (.ok false, next)
      else
        (.ok true, reader) := by
  have hNeeds :
      needsFrame reader = true ↔ (staging reader).ready = [] :=
    List.isEmpty_iff
  rw [fillRounds, Step.perform_bind_of_ok (Step.perform_get reader)]
  by_cases hNone : (staging reader).ready = []
  · rw [if_pos hNone, hNeeds.mpr hNone]
    simp only [Bool.not_true, Bool.false_eq_true, if_false]
    rw [Step.perform_bind]
    rcases readFrame.perform reader with ⟨e | _ | _, next⟩
    · rfl
    · rfl
    · rfl
  · rw [if_neg hNone, if_pos]
    · rfl
    · simpa using fun h => hNone (hNeeds.mp h)

/- What filling does with a reader that owes some data. -/
inductive Filled
    (AtEnd : ρ → Prop)
    (data : Bytes)
    (failure : Option Error) :
    Except Error Bool × ρ → Prop where
  | ready {next : ρ} :
      (staging next).ready ≠ [] →
      Owes next data failure →
        Filled AtEnd data failure (.ok true, next)
  | ended {next : ρ} :
      data = [] →
      failure = none →
      AtEnd next →
      (staging next).ready = [] →
        Filled AtEnd data failure (.ok false, next)
  | failed {next : ρ} {e : Error} :
      data = [] →
      failure = some e →
        Filled AtEnd data failure (.error e, next)

namespace Orderly

variable
  {AtEnd : ρ → Prop} {reader next : ρ} {data : Bytes}
  {failure : Option Error}

/- Every reader owes something. -/
theorem exists_owes
    (hOrderly : Orderly AtEnd)
    (n : Nat)
    (reader : ρ)
    (hRest : (source reader).remaining < n) :
    ∃ data failure, Owes reader data failure := by
  induction n generalizing reader with
  | zero => exact absurd hRest (Nat.not_lt_zero _)
  | succ n ih =>
    rcases hRead : readFrame.perform reader with
      ⟨e | _ | _, next⟩
    · exact ⟨_, some e, [], .failed hRead, rfl⟩
    · exact ⟨_, none, [], .ended hRead, rfl⟩
    · have hLess := hOrderly.onward reader next hRead
      rcases ih next (by omega) with
        ⟨_, failure, blocks, hDelivers, _⟩
      exact ⟨_, failure, _, .frame hRead hDelivers, rfl⟩

/- What is ready does not matter to the frames behind it. -/
theorem owes_withStaging
    (hOrderly : Orderly AtEnd)
    {staged : Staging}
    {blocks : List Bytes}
    (hArea : staged.area = (staging reader).area)
    (hDelivers : Delivers reader blocks failure) :
    Owes (withStaging staged reader)
      (staged.ready ++ blocks.flatten) failure := by
  have hSame := hOrderly.readFrame_withStaging staged reader hArea
  refine ⟨blocks, ?_, ?_⟩
  · cases hDelivers with
    | ended hRead => exact .ended (hSame.trans hRead)
    | failed hRead => exact .failed (hSame.trans hRead)
    | frame hRead hRest => exact .frame (hSame.trans hRead) hRest
  · rw [hOrderly.staging_withStaging]

/-
  With a round more than there are bytes, filling comes to
  its end by itself. The induction is on the rounds; each
  frame without bytes takes a round.
-/
theorem filled_of_fillRounds
    (hOrderly : Orderly AtEnd)
    (n : Nat)
    (reader : ρ)
    (hRounds : (source reader).remaining + 1 < n)
    (hOwes : Owes reader data failure) :
    Filled AtEnd data failure ((fillRounds n).perform reader) ∧
      (fillRounds (n + 1)).perform reader =
        (fillRounds n).perform reader := by
  induction n generalizing reader with
  | zero => exact absurd hRounds (Nat.not_lt_zero _)
  | succ n ih =>
    rw [perform_fillRounds n reader,
      perform_fillRounds (n + 1) reader]
    by_cases hNone : (staging reader).ready = []
    · rw [if_pos hNone, if_pos hNone]
      rcases hRead : readFrame.perform reader with
        ⟨e | _ | _, next⟩
      · rcases hOwes.of_failure hNone hRead with ⟨hData, hFails⟩
        exact ⟨.failed hData hFails, rfl⟩
      · rcases hOwes.of_end hNone hRead with ⟨hData, hFails⟩
        rcases hOrderly.ended reader next hRead with
          ⟨hEnd, hEmpty⟩
        exact ⟨.ended hData hFails hEnd hEmpty, rfl⟩
      · have hLess := hOrderly.onward reader next hRead
        exact ih next (by omega) (hOwes.of_frame hNone hRead)
    · rw [if_neg hNone, if_neg hNone]
      exact ⟨.ready hNone hOwes, rfl⟩

/- More rounds than a call takes make no difference. -/
theorem perform_fillRounds_of_more
    (hOrderly : Orderly AtEnd)
    (reader : ρ)
    (n : Nat)
    (hRounds : rounds reader < n) :
    (fillRounds n).perform reader = fill.perform reader := by
  rcases hOrderly.exists_owes _ reader (Nat.lt_succ_self _) with
    ⟨data, failure, hOwes⟩
  obtain ⟨more, rfl⟩ := Nat.exists_eq_add_of_le hRounds
  induction more with
  | zero => rfl
  | succ more ih =>
    rw [← ih (Nat.le_add_right _ _)]
    apply (hOrderly.filled_of_fillRounds _ reader _ hOwes).2
    exact Nat.le_add_right (rounds reader + 1) more

end Orderly

------------------------------------------------------------
-- Single Reads
------------------------------------------------------------

/- What a call for at most `n` bytes hands out of the data. -/
inductive Hands
    (AtEnd : ρ → Prop)
    (n : Nat)
    (data : Bytes)
    (failure : Option Error)
    (reader : ρ) :
    Except Error Bytes × ρ → Prop where
  | unasked :
      n = 0 → Hands AtEnd n data failure reader (.ok [], reader)
  | some {next : ρ} {bs rest : Bytes} :
      0 < bs.length →
      bs.length ≤ n →
      data = bs ++ rest →
      Owes next rest failure →
        Hands AtEnd n data failure reader (.ok bs, next)
  | ended {next : ρ} :
      0 < n →
      data = [] →
      failure = none →
      AtEnd next →
      Owes next [] none →
        Hands AtEnd n data failure reader (.ok [], next)
  | failed {next : ρ} {e : Error} :
      0 < n →
      data = [] →
      failure = some e →
        Hands AtEnd n data failure reader (.error e, next)

namespace Orderly

variable
  {AtEnd : ρ → Prop} {reader next : ρ} {data : Bytes}
  {failure : Option Error}

/- At the end nothing is owed. -/
theorem owes_of_end
    (hOrderly : Orderly AtEnd)
    (hEnd : AtEnd reader)
    (hNone : (staging reader).ready = []) :
    Owes reader [] none := by
  rcases hOrderly.ends reader hEnd with ⟨next, hRead⟩
  exact ⟨[], .ended hRead, by rw [hNone]; rfl⟩

/-
  A call hands out bytes from the front of the data, and
  none only at the end.
-/
theorem hands_of_read
    (hOrderly : Orderly AtEnd)
    (n : Nat)
    (hOwes : Owes reader data failure) :
    Hands AtEnd n data failure reader ((read n).perform reader) := by
  unfold read
  by_cases hWant : n = 0
  · rw [if_pos hWant]
    exact .unasked hWant
  rw [if_neg hWant]
  have hPos := Nat.pos_of_ne_zero hWant
  have hFilled :=
    (hOrderly.filled_of_fillRounds (rounds reader + 1) reader
      (Nat.lt_succ_self _) hOwes).1
  have hFill :
      (fill : Action ρ Bool).perform reader =
        (fillRounds (rounds reader + 1)).perform reader :=
    rfl
  rw [Step.perform_bind, hFill]
  cases hRun : (fillRounds (rounds reader + 1)).perform reader with
  | mk result next =>
    rw [hRun] at hFilled
    cases hFilled with
    | failed hData hFails => exact .failed hPos hData hFails
    | ended hData hFails hEnd hNone =>
      exact
        .ended hPos hData hFails hEnd
          (hOrderly.owes_of_end hEnd hNone)
    | ready hSome hLater =>
      rcases hLater with ⟨blocks, hDelivers, hData⟩
      have hLength := List.length_pos_iff.mpr hSome
      have hCut :
          data =
            (staging next).ready.take n ++
              ((staging next).ready.drop n ++ blocks.flatten) := by
        rw [hData, ← List.append_assoc, List.take_append_drop]
      refine
        .some ?_ ?_ hCut (hOrderly.owes_withStaging rfl hDelivers)
      · rw [List.length_take]
        omega
      · exact List.length_take_le _ _

end Orderly

end FrameReader

------------------------------------------------------------
-- Calls
------------------------------------------------------------

/- A call that reads bytes: into a buffer, or into a range. -/
inductive ReadCall where
  | read (n : Nat)
  | readRange (buffer : Bytes) (offset length : Nat)

namespace ReadCall

/- A range must lie inside its buffer. -/
def InRange : ReadCall → Prop
  | read _ => True
  | readRange buffer offset length =>
      offset + length ≤ buffer.length

instance : DecidablePred InRange
  | read _ => inferInstanceAs (Decidable True)
  | readRange buffer offset length =>
      inferInstanceAs (Decidable (offset + length ≤ buffer.length))

/- The most bytes that a call asks for. -/
def wanted : ReadCall → Nat
  | read n => n
  | readRange _ _ length => length

variable {ρ : Type} [FrameReader ρ]

/- Make a call, and look up the bytes that it has stored. -/
def action : ReadCall → Action ρ Bytes
  | read n => FrameReader.read n
  | readRange buffer offset length => do
      let (count, after) ←
        FrameReader.readRange buffer offset length
      return (after.drop offset).take count

end ReadCall

namespace FrameReader

variable {ρ : Type} [FrameReader ρ]

/- A range that does not lie inside its buffer is refused. -/
theorem perform_readRange_of_outside
    (reader : ρ)
    {buffer : Bytes}
    {offset length : Nat}
    (hOutside : buffer.length < offset + length) :
    (readRange buffer offset length).perform reader =
      (.error (.misuse (.range buffer.length offset length)),
        reader) := by
  have hCheck :
      checkRange buffer.length offset length =
        .error (.misuse (.range buffer.length offset length)) :=
    if_neg (Nat.not_le.mpr hOutside)
  rw [readRange, hCheck]
  rfl

/- What a buffer holds after bytes were put into a range. -/
structure Stored
    (buffer : Bytes)
    (offset : Nat)
    (bs after : Bytes) : Prop where
  length : after.length = buffer.length
  before : after.take offset = buffer.take offset
  inside : (after.drop offset).take bs.length = bs
  behind :
    after.drop (offset + bs.length) =
      buffer.drop (offset + bs.length)

theorem stored_splice
    {buffer bs : Bytes}
    {offset : Nat}
    (hRoom : offset + bs.length ≤ buffer.length) :
    Stored buffer offset bs
      (buffer.take offset ++ bs ++
        buffer.drop (offset + bs.length)) := by
  have hFront : (buffer.take offset).length = offset := by
    rw [List.length_take]
    omega
  have hBoth : (buffer.take offset ++ bs).length =
      offset + bs.length := by
    rw [List.length_append, hFront]
  constructor
  · rw [List.length_append, hBoth, List.length_drop]
    omega
  · rw [List.append_assoc]
    exact List.take_left' hFront
  · rw [List.append_assoc, List.drop_left' hFront,
      List.take_left]
  · exact List.drop_left' hBoth

/- Reading into a range is reading as many bytes. -/
theorem perform_readRange_of_inside
    (reader : ρ)
    {buffer : Bytes}
    {offset length : Nat}
    (hInside : offset + length ≤ buffer.length) :
    (readRange buffer offset length).perform reader =
      match (read length).perform reader with
      | (.error e, next) => (.error e, next)
      | (.ok bs, next) =>
          (.ok
            (bs.length,
              buffer.take offset ++ bs ++
                buffer.drop (offset + bs.length)),
            next) := by
  have hCheck :
      checkRange buffer.length offset length = .ok () :=
    if_pos hInside
  rw [readRange, hCheck,
    Step.perform_bind_of_ok (Step.perform_ofExcept _ _),
    Step.perform_bind]
  rcases (read length).perform reader with ⟨e | bs, next⟩
  · rfl
  · rfl

namespace Hands

variable
  {AtEnd : ρ → Prop} {reader next : ρ} {data bs : Bytes}
  {failure : Option Error} {n : Nat}

/- No call hands out more than it is asked for. -/
theorem length_le
    (h : Hands AtEnd n data failure reader (.ok bs, next)) :
    bs.length ≤ n := by
  cases h with
  | unasked _ => exact Nat.zero_le _
  | some _ hLe _ _ => exact hLe
  | ended _ _ _ _ _ => exact Nat.zero_le _

/- What was not handed out is owed still. -/
theorem owes
    (h : Hands AtEnd n data failure reader (.ok bs, next))
    (hOwes : Owes reader data failure) :
    ∃ rest, data = bs ++ rest ∧ Owes next rest failure := by
  cases h with
  | unasked _ => exact ⟨data, rfl, hOwes⟩
  | some _ _ hData hRest => exact ⟨_, hData, hRest⟩
  | ended _ hData hNone _ hEnd =>
    rw [hNone]
    exact ⟨[], hData, hEnd⟩

end Hands

/- A call in its range hands out as many bytes as it wants. -/
theorem Orderly.hands_of_action
    {AtEnd : ρ → Prop}
    {reader : ρ}
    {data : Bytes}
    {failure : Option Error}
    (hOrderly : Orderly AtEnd)
    (call : ReadCall)
    (hRange : call.InRange)
    (hOwes : Owes reader data failure) :
    Hands AtEnd call.wanted data failure reader
      (call.action.perform reader) := by
  cases call with
  | read n => exact hOrderly.hands_of_read n hOwes
  | readRange buffer offset length =>
    have hHands := hOrderly.hands_of_read length hOwes
    have hSame :
        (ReadCall.readRange buffer offset length).action.perform
            reader =
          (read length).perform reader := by
      rw [ReadCall.action, Step.perform_bind,
        perform_readRange_of_inside reader hRange]
      rcases hRead : (read length).perform reader with
        ⟨e | bs, next⟩
      · rfl
      · rw [hRead] at hHands
        have hLe := hHands.length_le
        have hRoom : offset + bs.length ≤ buffer.length :=
          Nat.le_trans (Nat.add_le_add_left hLe offset) hRange
        exact
          congrArg (fun found => (Except.ok found, next))
            (stored_splice hRoom).inside
    rw [hSame]
    exact hHands

------------------------------------------------------------
-- Sequences Of Calls
------------------------------------------------------------

/- What calls have handed out, and what stopped them. -/
structure Handed
    (ρ : Type) where
  bytes : Bytes
  failure : Option Error
  reader : ρ

/-
  Calls one after another, up to the first that fails. A call
  that is out of range is refused, and the next one is made.
-/
def handOut : List ReadCall → ρ → Handed ρ
  | [], reader => ⟨[], none, reader⟩
  | call :: calls, reader =>
      match call.action.perform reader with
      | (.ok bs, next) =>
          let more := handOut calls next
          { more with bytes := bs ++ more.bytes }
      | (.error e, next) =>
          if call.InRange then
            ⟨[], some e, next⟩
          else
            handOut calls next

/- How calls leave what was owed to them. -/
inductive Leaves
    (data : Bytes)
    (failure : Option Error) : Handed ρ → Prop where
  | owing {last : ρ} {bs rest : Bytes} :
      data = bs ++ rest →
      Owes last rest failure →
        Leaves data failure ⟨bs, none, last⟩
  | failed {last : ρ} {e : Error} :
      failure = some e →
        Leaves data failure ⟨data, some e, last⟩

/- A call that is out of range leaves the reader as it is. -/
theorem perform_action_of_outside
    {call : ReadCall}
    (hOutside : ¬ call.InRange)
    (reader : ρ) :
    ∃ misuse,
      call.action.perform reader =
        (.error (.misuse misuse), reader) := by
  cases call with
  | read n => exact absurd trivial hOutside
  | readRange buffer offset length =>
    have hRange :=
      perform_readRange_of_outside reader (Nat.not_le.mp hOutside)
    exact ⟨_, Step.perform_bind_of_error hRange⟩

/-
  What calls hand out is the front of the data, and all of it
  where they are stopped.
-/
theorem Orderly.leaves_of_handOut
    {AtEnd : ρ → Prop}
    {reader : ρ}
    {data : Bytes}
    {failure : Option Error}
    (hOrderly : Orderly AtEnd)
    (calls : List ReadCall)
    (hOwes : Owes reader data failure) :
    Leaves data failure (handOut calls reader) := by
  induction calls generalizing reader data with
  | nil => exact .owing rfl hOwes
  | cons call calls ih =>
    rw [handOut]
    by_cases hRange : call.InRange
    · have hHands := hOrderly.hands_of_action call hRange hOwes
      rcases hCall : call.action.perform reader with
        ⟨e | bs, next⟩
      · rw [hCall] at hHands
        dsimp only
        rw [if_pos hRange]
        cases hHands with
        | failed _ hData hFails =>
          rw [hData]
          exact .failed hFails
      · rw [hCall] at hHands
        rcases hHands.owes hOwes with ⟨rest, hData, hRest⟩
        have hMore := ih hRest
        dsimp only
        rw [hData]
        cases hSteps : handOut calls next with
        | mk bytes stopped last =>
          rw [hSteps] at hMore
          cases hMore with
          | owing hSplit hLast =>
            apply Leaves.owing _ hLast
            rw [hSplit, List.append_assoc]
          | failed hFails => exact .failed hFails
    · rcases perform_action_of_outside hRange reader with
        ⟨misuse, hCall⟩
      rw [hCall]
      dsimp only
      rw [if_neg hRange]
      exact ih hOwes

end FrameReader

end SplitStream
