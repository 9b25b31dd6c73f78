import Mathlib
import SplitStream.Proofs.Raw.Onward
import SplitStream.Proofs.Reader.Handing
import SplitStream.Proofs.Reader.Onward

/-
  Readers of both framings in calls of any sizes. Both are
  orderly, whatever their source does: a container ends
  behind a terminator, a raw stream with its source.

  Main declarations:
    * `ContainerReader.orderly`
    * `RawReader.orderly`
    * `FrameReader.Serves`
    * `FrameReader.serves_every_call`
-/

------------------------------------------------------------
-- Readers In Order
------------------------------------------------------------

namespace SplitStream

namespace ContainerReader

open FrameReader

/- The reader stands behind the last member that it reads. -/
def AtEnd
    (reader : ContainerReader) : Prop :=
  reader.isFinished = true

/- Behind a terminator no frame is looked for. -/
theorem perform_readFrame_of_end
    {reader : ContainerReader}
    (hEnd : reader.AtEnd) :
    readFrame.perform reader =
      (.ok false,
        { reader with staging := reader.staging.clear }) := by
  have hStage : reader.stage = .ended := of_decide_eq_true hEnd
  have hRound :
      round.perform
          { reader with staging := reader.staging.clear } =
        (.ok .ended,
          { reader with staging := reader.staging.clear }) := by
    unfold round
    rw [Step.perform_bind_of_ok (Step.perform_get _),
      if_pos hStage]
    rfl
  exact perform_readFrameRounds _ hRound

theorem orderly : Orderly AtEnd where
  staging_withStaging := fun _ _ => rfl
  readFrame_withStaging := by
    intro staged reader hArea
    have hClear :
        staged.clear = reader.staging.clear := by
      unfold Staging.clear
      rw [hArea]
      rfl
    change
      (readFrameRounds _).perform
          { reader with staging := staged.clear } =
        _
    rw [hClear]
    rfl
  onward := by
    intro reader next hRead
    have hFinds := finds_of_readFrame reader
    change readFrame.perform reader = _ at hRead
    rw [hRead] at hFinds
    cases hFinds with
    | frame _ _ hLess => exact hLess
  ended := by
    intro reader next hRead
    have hFinds := finds_of_readFrame reader
    change readFrame.perform reader = _ at hRead
    rw [hRead] at hFinds
    cases hFinds with
    | ended hGoes hStage =>
      exact ⟨decide_eq_true hStage, hGoes.ready⟩
  ends := fun _ hEnd => ⟨_, perform_readFrame_of_end hEnd⟩

end ContainerReader

namespace RawReader

open FrameReader

/- Nothing is left of the source. -/
def AtEnd
    (reader : RawReader) : Prop :=
  reader.source.Exhausted

theorem orderly : Orderly AtEnd where
  staging_withStaging := fun _ _ => rfl
  readFrame_withStaging := by
    intro staged reader hArea
    have hClear :
        staged.clear = reader.staging.clear := by
      unfold Staging.clear
      rw [hArea]
      rfl
    change
      readFrame.perform { reader with staging := staged } =
        readFrame.perform reader
    rw [perform_readFrame_eq, perform_readFrame_eq]
    dsimp only
    rw [hClear]
  onward := by
    intro reader next hRead
    have hFinds := finds_of_readFrame reader
    change readFrame.perform reader = _ at hRead
    rw [hRead] at hFinds
    cases hFinds with
    | frame _ _ _ hLess => exact hLess
  ended := by
    intro reader next hRead
    have hFinds := finds_of_readFrame reader
    change readFrame.perform reader = _ at hRead
    rw [hRead] at hFinds
    cases hFinds with
    | ended _ hEnd => exact ⟨hEnd, rfl⟩
  ends := fun _ hEnd => perform_readFrame_of_exhausted hEnd

end RawReader

------------------------------------------------------------
-- Service
------------------------------------------------------------

namespace FrameReader

variable {ρ : Type} [FrameReader ρ]

/-
  A reader serves calls of any sizes. It owes some data and
  perhaps a failure behind it. A call in its range hands out
  bytes from the front of the data, and none only at the end;
  calls after each other go on with the rest. Only the range
  that was asked for changes in a buffer, a range outside the
  buffer changes nothing, and no loop stops for want of
  rounds.
-/
structure Serves
    (AtEnd : ρ → Prop)
    (reader : ρ)
    (data : Bytes)
    (failure : Option Error) : Prop where
  owes : Owes reader data failure
  at_end :
    AtEnd reader →
    available reader = 0 →
      data = [] ∧ failure = none
  hands :
    ∀ call : ReadCall,
      call.InRange →
        Hands AtEnd call.wanted data failure reader
          (call.action.perform reader)
  leaves :
    ∀ calls, Leaves data failure (handOut calls reader)
  stores :
    ∀ buffer offset length count after next,
      (readRange buffer offset length).perform reader =
          (.ok (count, after), next) →
        ∃ bs,
          (read length).perform reader = (.ok bs, next) ∧
          count = bs.length ∧
          offset + count ≤ buffer.length ∧
          Stored buffer offset bs after
  refuses :
    ∀ buffer offset length,
      buffer.length < offset + length →
        (readRange buffer offset length).perform reader =
          (.error (.misuse (.range buffer.length offset length)),
            reader)
  terminates :
    ∀ n,
      rounds reader < n →
        (fillRounds n).perform reader = fill.perform reader

theorem Orderly.serves
    {AtEnd : ρ → Prop}
    {reader : ρ}
    {data : Bytes}
    {failure : Option Error}
    (hOrderly : Orderly AtEnd)
    (hOwes : Owes reader data failure) :
    Serves AtEnd reader data failure where
  owes := hOwes
  at_end := fun hEnd hNone =>
    hOwes.unique
      (hOrderly.owes_of_end hEnd (List.length_eq_zero_iff.mp hNone))
  hands := fun call hRange =>
    hOrderly.hands_of_action call hRange hOwes
  leaves := fun calls => hOrderly.leaves_of_handOut calls hOwes
  stores := by
    intro buffer offset length count after next hRun
    by_cases hInside : offset + length ≤ buffer.length
    · rw [perform_readRange_of_inside reader hInside] at hRun
      have hHands := hOrderly.hands_of_read length hOwes
      rcases hRead : (read length).perform reader with
        ⟨e | bs, last⟩
      · rw [hRead] at hRun
        cases hRun
      · rw [hRead] at hRun hHands
        cases hRun
        have hLe := hHands.length_le
        have hRoom : offset + bs.length ≤ buffer.length := by
          omega
        exact ⟨bs, rfl, rfl, hRoom, stored_splice hRoom⟩
    · rw [perform_readRange_of_outside reader
        (Nat.not_le.mp hInside)] at hRun
      cases hRun
  refuses := fun _ _ _ hOutside =>
    perform_readRange_of_outside reader hOutside
  terminates := hOrderly.perform_fillRounds_of_more reader

/-
  Readers of both framings serve every call, in whatever
  state they are, and over any source. The loop over the
  members of a container comes to its end by itself, too.
-/
theorem serves_every_call :
    (∀ reader : ContainerReader,
      ∃ data failure,
        Serves ContainerReader.AtEnd reader data failure) ∧
    (∀ reader : RawReader,
      ∃ data failure,
        Serves RawReader.AtEnd reader data failure) ∧
    ∀ (reader : ContainerReader) (more : Nat),
      (ContainerReader.readFrameRounds
          (reader.source.remaining + 1 + more)).perform
            (cleared reader) =
        ContainerReader.readFrame.perform reader := by
  refine ⟨?_, ?_, ?_⟩
  · intro reader
    rcases ContainerReader.orderly.exists_owes _ reader
      (Nat.lt_succ_self _) with ⟨data, failure, hOwes⟩
    exact ⟨data, failure, ContainerReader.orderly.serves hOwes⟩
  · intro reader
    rcases RawReader.orderly.exists_owes _ reader
      (Nat.lt_succ_self _) with ⟨data, failure, hOwes⟩
    exact ⟨data, failure, RawReader.orderly.serves hOwes⟩
  · intro reader more
    exact
      ContainerReader.perform_readFrameRounds_of_more _
        (cleared reader) (Nat.le_add_right _ _)

/- A frame without bytes between two frames is passed over. -/
example :
    let stream : Bytes :=
      [0, 0, 0, 2, 0, 0, 0, 2, 7, 8, 0, 0, 0, 0, 0, 0, 0, 0,
        0, 0, 0, 1, 0, 0, 0, 1, 9]
    let reader := RawReader.new (.ofBytes stream) .stored
    let handed :=
      handOut
        [.read 1, .readRange [5, 5, 5] 2 2, .read 4, .read 4,
          .read 4]
        reader
    (handed.bytes, handed.failure) = ([7, 8, 9], none) := by
  cbv

end FrameReader

end SplitStream
