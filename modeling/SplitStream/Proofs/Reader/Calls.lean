import SplitStream.Checksum.Selection
import SplitStream.Container.Header
import SplitStream.Proofs.Writer.Lockstep
import SplitStream.Reader.Basic

/-
  Sequences of calls to a reader. Every call is answered, and
  the next one finds the reader that it has left, whether it
  failed or not. Two readers that are twins to every call get
  the same answers.

  Main declarations:
    * `ReaderCall`
    * `ReaderCall.action`
    * `FrameReader.Reached`
    * `FrameReader.replies`
    * `FrameReader.Twinned`
    * `FrameReader.Twinned.lockstep`
    * `FrameReader.replies_eq`
    * `FrameReader.twinned_itself`
-/

------------------------------------------------------------
-- Frame Starts
------------------------------------------------------------

namespace SplitStream

/- A word is found in the bytes that are read for it. -/
theorem Reading.lockstep_frameStart
    {Near : Source → Source → Prop}
    {Lost : Source → Prop}
    (hBytes : (upTo 4).Lockstep Near Lost) :
    frameStart.Lockstep Near Lost := by
  unfold frameStart
  apply hBytes.bind
  intro bs
  apply Step.Lockstep.ite
  · exact Step.lockstep_pure _
  apply Step.Lockstep.ite
  · exact Step.lockstep_pure _
  · exact Step.lockstep_throw _

------------------------------------------------------------
-- Calls And Answers
------------------------------------------------------------

/- The answers of a reader that has not failed. -/
inductive Answer where
  | done
  | found (more : Bool)
  | bytes (bs : Bytes)
  | stored (count : Nat) (buffer : Bytes)
  | number (n : Nat)
  | header (fields : Header)
  | checksums (selection : Selection)

/-
  The calls of a reader: those that the readers of both
  framings have, and further ones.
-/
inductive ReaderCall
    (κ : Type) where
  | readFrame
  | read (n : Nat)
  | readRange (buffer : Bytes) (offset length : Nat)
  | available
  | needsFrame
  | framesRead
  | further (call : κ)

variable {ρ κ γ α : Type}

/- Make a call, given how the further ones are made. -/
def ReaderCall.action
    [FrameReader ρ]
    (others : κ → Action ρ Answer) :
    ReaderCall κ → Action ρ Answer
  | readFrame => do
      return .found (← FrameReader.readFrame)
  | read n => do
      return .bytes (← FrameReader.read n)
  | readRange buffer offset length => do
      let (count, after) ←
        FrameReader.readRange buffer offset length
      return .stored count after
  | available => do
      return .number (FrameReader.available (← get))
  | needsFrame => do
      return .found (FrameReader.needsFrame (← get))
  | framesRead => do
      return .number (FrameReader.frames (← get))
  | further call => others call

namespace FrameReader

/- The readers that calls make of an opened one. -/
inductive Reached
    (Opened : ρ → Prop)
    (action : γ → Action ρ α) : ρ → Prop where
  | opened {reader : ρ} :
      Opened reader → Reached Opened action reader
  | called {reader : ρ} (call : γ) :
      Reached Opened action reader →
        Reached Opened action ((action call).final reader)

/- What opening gives and calls keep is true of all of them. -/
theorem Reached.keeps
    {Opened Kept : ρ → Prop}
    {action : γ → Action ρ α}
    {reader : ρ}
    (hReached : Reached Opened action reader)
    (hOpened : ∀ reader, Opened reader → Kept reader)
    (hCalled :
      ∀ reader call,
        Kept reader → Kept ((action call).final reader)) :
    Kept reader := by
  induction hReached with
  | opened h => exact hOpened _ h
  | called call _ ih => exact hCalled _ call ih

/- The answers to calls, one after another. -/
def replies
    (action : γ → Action ρ α) :
    List γ → ρ → List (Except Error α)
  | [], _ => []
  | call :: calls, reader =>
      ((action call).perform reader).1 ::
        replies action calls ((action call).final reader)

/- Twins to every call get the same answers. -/
theorem replies_eq
    {Alike : ρ → ρ → Prop}
    {action : γ → Action ρ α}
    {calls : List γ}
    {left right : ρ}
    (hCalls :
      ∀ call ∈ calls,
        (action call).Lockstep Alike fun _ => False)
    (hAlike : Alike left right) :
    replies action calls left = replies action calls right := by
  induction calls generalizing left right with
  | nil => rfl
  | cons call calls ih =>
    rcases hCalls call List.mem_cons_self left right hAlike with
      ⟨result, s, t, hLeft, hRight, hBoth⟩ | ⟨_, _, _, hLost⟩
    · have hMore :=
        ih (fun later hLater =>
          hCalls later (List.mem_cons_of_mem _ hLater)) hBoth
      unfold replies Step.final
      rw [hLeft, hRight, hMore]
    · exact hLost.elim

/- A call that makes two readers twins is answered alike. -/
theorem replies_cons_eq
    {Alike : ρ → ρ → Prop}
    {action : γ → Action ρ α}
    {call : γ}
    {calls : List γ}
    {left right : ρ}
    (hFirst :
      Step.Paced Alike (fun _ => False)
        ((action call).perform left)
        ((action call).perform right))
    (hCalls :
      ∀ call ∈ calls,
        (action call).Lockstep Alike fun _ => False) :
    replies action (call :: calls) left =
      replies action (call :: calls) right := by
  rcases hFirst with
    ⟨result, s, t, hLeft, hRight, hBoth⟩ | ⟨_, _, _, hLost⟩
  · have hMore := replies_eq hCalls hBoth
    unfold replies Step.final
    rw [hLeft, hRight, hMore]
  · exact hLost.elim

/- A reader beside itself, while something is true of it. -/
def Itself
    (Kept : ρ → Prop)
    (left right : ρ) : Prop :=
  left = right ∧ Kept left

/- A step in lockstep with itself keeps what is true. -/
theorem kept_of_lockstep
    {Kept : ρ → Prop}
    {action : Action ρ α}
    {reader : ρ}
    (hAction : action.Lockstep (Itself Kept) fun _ => False)
    (hKept : Kept reader) :
    Kept (action.final reader) := by
  unfold Step.final
  rcases hAction reader reader ⟨rfl, hKept⟩ with
    ⟨_, next, _, hNext, _, _, hStill⟩ | ⟨_, _, _, hLost⟩
  · rw [hNext]
    exact hStill
  · exact hLost.elim

------------------------------------------------------------
-- Twins
------------------------------------------------------------

variable [FrameReader ρ]

/-
  Readers that are alike show the same, find the same frames,
  and stay alike when they hand out bytes.
-/
structure Twinned
    (Alike : ρ → ρ → Prop) : Prop where
  ready :
    ∀ left right : ρ,
      Alike left right →
        (staging left).ready = (staging right).ready
  frames :
    ∀ left right : ρ, Alike left right → frames left = frames right
  remaining :
    ∀ left right : ρ,
      Alike left right →
        (source left).remaining = (source right).remaining
  readFrame :
    (readFrame : Action ρ Bool).Lockstep Alike fun _ => False
  taken :
    ∀ (left right : ρ) (n : Nat),
      Alike left right →
        Alike
          (withStaging ((staging left).take n).2 left)
          (withStaging ((staging right).take n).2 right)

namespace Twinned

variable {Alike : ρ → ρ → Prop}

theorem lockstep_takeReady
    (hTwins : Twinned Alike)
    (n : Nat) :
    (takeReady n : Action ρ Bytes).Lockstep Alike
      fun _ => False := by
  intro left right hAlike
  have hReady := hTwins.ready left right hAlike
  left
  refine
    ⟨_, _, _, rfl, ?_, hTwins.taken left right n hAlike⟩
  unfold takeReady Staging.take
  rw [Step.perform_ofStep, hReady]

theorem lockstep_fillRounds
    (hTwins : Twinned Alike)
    (n : Nat) :
    (fillRounds n : Action ρ Bool).Lockstep Alike
      fun _ => False := by
  induction n with
  | zero => exact Step.lockstep_pure false
  | succ n ih =>
    unfold fillRounds
    apply Step.lockstep_get_bind
    · intro left right hAlike
      unfold needsFrame Staging.needsFrame
      rw [hTwins.ready left right hAlike]
    intro left right hAlike
    apply Step.Lockstep.ite
    · exact Step.lockstep_pure true
    apply hTwins.readFrame.bind
    intro more
    apply Step.Lockstep.ite
    · exact ih
    · exact Step.lockstep_pure false

theorem lockstep_fill
    (hTwins : Twinned Alike) :
    (fill : Action ρ Bool).Lockstep Alike fun _ => False := by
  apply Step.lockstep_get_bind
  · intro left right hAlike
    unfold rounds
    rw [hTwins.remaining left right hAlike]
  · intro left right hAlike
    exact hTwins.lockstep_fillRounds _

theorem lockstep_read
    (hTwins : Twinned Alike)
    (n : Nat) :
    (read n : Action ρ Bytes).Lockstep Alike fun _ => False := by
  unfold read
  apply Step.Lockstep.ite
  · exact Step.lockstep_pure []
  apply hTwins.lockstep_fill.bind
  intro more
  apply Step.Lockstep.ite
  · exact hTwins.lockstep_takeReady n
  · exact Step.lockstep_pure []

theorem lockstep_readRange
    (hTwins : Twinned Alike)
    (buffer : Bytes)
    (offset length : Nat) :
    (readRange buffer offset length :
      Action ρ (Nat × Bytes)).Lockstep Alike fun _ => False := by
  unfold readRange
  apply Step.Lockstep.bind
  · exact Step.lockstep_ofExcept _
  intro checked
  apply (hTwins.lockstep_read length).bind
  intro bs
  exact Step.lockstep_pure _

/- Calls are in lockstep if the further ones are. -/
theorem lockstep
    {others : κ → Action ρ Answer}
    {call : ReaderCall κ}
    (hTwins : Twinned Alike)
    (hFurther :
      ∀ other,
        call = .further other →
          (others other).Lockstep Alike fun _ => False) :
    (call.action others).Lockstep Alike fun _ => False := by
  cases call with
  | readFrame =>
    exact hTwins.readFrame.bind fun more => Step.lockstep_pure _
  | read n =>
    exact (hTwins.lockstep_read n).bind fun bs =>
      Step.lockstep_pure _
  | readRange buffer offset length =>
    exact (hTwins.lockstep_readRange buffer offset length).bind
      fun stored => Step.lockstep_pure _
  | available =>
    apply Step.lockstep_get_bind
    · intro left right hAlike
      unfold available Staging.available
      rw [hTwins.ready left right hAlike]
    · exact fun _ _ _ => Step.lockstep_pure _
  | needsFrame =>
    apply Step.lockstep_get_bind
    · intro left right hAlike
      unfold needsFrame Staging.needsFrame
      rw [hTwins.ready left right hAlike]
    · exact fun _ _ _ => Step.lockstep_pure _
  | framesRead =>
    apply Step.lockstep_get_bind
    · intro left right hAlike
      rw [hTwins.frames left right hAlike]
    · exact fun _ _ _ => Step.lockstep_pure _
  | further other => exact hFurther other rfl

end Twinned

------------------------------------------------------------
-- Facts That Calls Keep
------------------------------------------------------------

/-
  Calls for frames and the handing out of bytes decide what
  all calls of both framings keep.
-/
theorem twinned_itself
    {Kept : ρ → Prop}
    (hFrames :
      ∀ (reader next : ρ) (result : Except Error Bool),
        Kept reader →
        readFrame.perform reader = (result, next) →
          Kept next)
    (hTaken :
      ∀ (reader : ρ) (n : Nat),
        Kept reader →
          Kept (withStaging ((staging reader).take n).2 reader)) :
    Twinned (Itself Kept) where
  ready := fun _ _ hSame => by rw [hSame.1]
  frames := fun _ _ hSame => by rw [hSame.1]
  remaining := fun _ _ hSame => by rw [hSame.1]
  readFrame := by
    intro left right hSame
    rcases hSame with ⟨rfl, hKept⟩
    left
    exact
      ⟨_, _, _, rfl, rfl, rfl, hFrames left _ _ hKept rfl⟩
  taken := by
    intro left right n hSame
    rcases hSame with ⟨rfl, hKept⟩
    exact ⟨rfl, hTaken left n hKept⟩

end FrameReader

end SplitStream
