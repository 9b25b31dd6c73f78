import SplitStream.Proofs.Storage.Streams
import SplitStream.Proofs.Writer.Lockstep

/-
  Streams in two trees side by side. A stream counts its
  operations and changes files and streams, and does nothing
  else to its tree; so two trees that are alike stay alike if
  these few changes keep them so.

  Main declarations:
    * `FileSystem.Likeness`
    * `FileSystem.Likeness.inStep_channel`
    * `FileSystem.Likeness.flushBuffer`
    * `FileSystem.likeness_calmer`
    * `FileSystem.likeness_itself`
    * `FileSystem.holds_final`
-/

------------------------------------------------------------
-- Likenesses
------------------------------------------------------------

namespace SplitStream

namespace FileSystem

/- The same names beside other files and other streams. -/
def holding
    (fs : FileSystem)
    (files : Table Nat Tape)
    (streams : Table Nat OpenStream) : FileSystem :=
  { fs with
    files := files
    streams := streams }

/-
  Trees that are alike have the same files and streams, and
  stay alike when these change. An operation that fails in
  the first one only leaves it lost.
-/
structure Likeness
    (Alike : FileSystem → FileSystem → Prop)
    (Lost : FileSystem → Prop) : Prop where
  attempt : attempt.Lockstep Alike Lost
  files :
    ∀ left right, Alike left right → left.files = right.files
  streams :
    ∀ left right,
      Alike left right → left.streams = right.streams
  holding :
    ∀ left right files streams,
      Alike left right →
        Alike (left.holding files streams)
          (right.holding files streams)

namespace Likeness

variable
  {α : Type} {Alike : FileSystem → FileSystem → Prop}
  {Lost : FileSystem → Prop}

/- What changes files and streams only keeps in step. -/
theorem modify
    (h : Likeness Alike Lost)
    (files : Table Nat Tape → Table Nat Tape)
    (streams : Table Nat OpenStream → Table Nat OpenStream)
    {f : FileSystem → FileSystem}
    (hChange :
      ∀ fs, f fs = fs.holding (files fs.files) (streams fs.streams)) :
    (modify f : Action FileSystem PUnit).Lockstep Alike Lost := by
  apply Step.lockstep_modify
  intro left right hAlike
  rw [hChange, hChange, h.files left right hAlike,
    h.streams left right hAlike]
  exact h.holding left right _ _ hAlike

theorem writeAt
    (h : Likeness Alike Lost)
    (number position : Nat)
    (bs : Bytes) :
    (FileSystem.writeAt number position bs).Lockstep Alike
      Lost := by
  apply h.attempt.bind
  intro _
  apply Step.lockstep_get_bind
  · intro left right hAlike
    rw [h.files left right hAlike]
  · intro left _ _
    exact h.modify (·.set number _) id fun _ => rfl

theorem state
    (h : Likeness Alike Lost)
    (stream : OutputStream) :
    stream.state.Lockstep Alike Lost := by
  apply Step.lockstep_get_bind
  · intro left right hAlike
    rw [h.streams left right hAlike]
  · intro left _ _
    cases left.streams.get? stream.number with
    | none => exact Step.lockstep_throw _
    | some state => exact Step.lockstep_pure state

theorem setState
    (h : Likeness Alike Lost)
    (stream : OutputStream)
    (state : OpenStream) :
    (stream.setState state).Lockstep Alike Lost :=
  h.modify id (·.set stream.number state) fun _ => rfl

theorem writeThrough
    (h : Likeness Alike Lost)
    (stream : OutputStream)
    (bs : Bytes) :
    (stream.writeThrough bs).Lockstep Alike Lost := by
  apply (h.state stream).bind
  intro state
  apply (h.writeAt state.file state.position bs).bind
  intro _
  exact h.setState stream _

theorem flushBuffer
    (h : Likeness Alike Lost)
    (stream : OutputStream) :
    stream.flushBuffer.Lockstep Alike Lost := by
  apply (h.state stream).bind
  intro state
  apply Step.Lockstep.ite _ (Step.lockstep_pure ())
  apply (h.writeThrough stream _).bind
  intro _
  apply (h.state stream).bind
  intro after
  exact h.setState stream _

theorem takeIn
    (h : Likeness Alike Lost)
    (stream : OutputStream)
    (bs : Bytes) :
    (stream.takeIn bs).Lockstep Alike Lost := by
  apply Step.Lockstep.ite
  · apply (h.writeThrough stream bs).bind
    intro _
    exact Step.lockstep_pure _
  · apply (h.state stream).bind
    intro state
    apply (h.setState stream _).bind
    intro _
    exact Step.lockstep_pure _

theorem write
    (h : Likeness Alike Lost)
    (stream : OutputStream)
    (bs : Bytes) :
    (stream.write bs).Lockstep Alike Lost := by
  rw [OutputStream.write_eq]
  apply (h.state stream).bind
  intro state
  apply Step.Lockstep.ite _ (h.takeIn stream bs)
  apply (h.flushBuffer stream).bind
  intro _
  exact h.takeIn stream bs

/- A channel hands on what its stream has come to. -/
theorem device
    {action : Action FileSystem α}
    (hAction : action.Lockstep Alike Lost) :
    (Step.ofStep fun fs =>
      OutputStream.deviceResult (action.perform fs)).Lockstep
        Alike Lost := by
  intro left right hAlike
  rcases hAction left right hAlike with
    ⟨result, left', right', hLeft, hRight, hBoth⟩ |
      ⟨e, left', hLeft, hLost⟩
  · left
    refine
      ⟨result.mapError Error.ioKind, left', right', ?_, ?_,
        hBoth⟩
    · rw [Step.perform_ofStep, hLeft]
      rfl
    · rw [Step.perform_ofStep, hRight]
      rfl
  · right
    refine ⟨e.ioKind, left', ?_, hLost⟩
    rw [Step.perform_ofStep, hLeft]
    rfl

/- The channels of streams keep alike trees in step. -/
theorem inStep_channel
    (h : Likeness Alike Lost)
    (stream : OutputStream) :
    stream.channel.InStep Alike Lost where
  write := fun bs => device (h.write stream bs)
  flush := device (h.flushBuffer stream)

end Likeness

------------------------------------------------------------
-- Calmer Trees
------------------------------------------------------------

variable {Holds Lost : FileSystem → Prop}

/-
  A tree beside the same tree in which nothing fails for a
  reason outside: they are alike until something fails.
-/
theorem likeness_calmer
    (hHolding :
      ∀ fs files streams,
        Holds fs → Holds (fs.holding files streams))
    (hCounted : ∀ fs, Holds fs → Holds fs.counted)
    (hLost :
      ∀ fs kind,
        Holds fs →
        fs.faults fs.step = some kind →
          Lost fs.counted) :
    Likeness (fun fs calmer => Holds fs ∧ calmer = fs.calm)
      Lost where
  attempt := by
    rintro fs _ ⟨hHolds, rfl⟩
    rw [perform_attempt, fs.calm_calm.perform_attempt]
    cases hFault : fs.faults fs.step with
    | none =>
      left
      exact
        ⟨.ok (), fs.counted, fs.calm.counted, rfl, rfl,
          hCounted fs hHolds, rfl⟩
    | some kind =>
      right
      exact
        ⟨.io kind, fs.counted, rfl, hLost fs kind hHolds hFault⟩
  files := by
    rintro fs _ ⟨_, rfl⟩
    rfl
  streams := by
    rintro fs _ ⟨_, rfl⟩
    rfl
  holding := by
    rintro fs _ files streams ⟨hHolds, rfl⟩
    exact ⟨hHolding fs files streams hHolds, rfl⟩

/-
  A tree beside itself: what neither counting nor a change of
  files and streams breaks is not broken by a stream.
-/
theorem likeness_itself
    (hHolding :
      ∀ fs files streams,
        Holds fs → Holds (fs.holding files streams))
    (hCounted : ∀ fs, Holds fs → Holds fs.counted) :
    Likeness (fun fs other => fs = other ∧ Holds fs)
      fun _ => False where
  attempt := by
    rintro fs _ ⟨rfl, hHolds⟩
    left
    rw [perform_attempt]
    exact
      ⟨_, fs.counted, fs.counted, rfl, rfl, rfl,
        hCounted fs hHolds⟩
  files := by
    rintro fs _ ⟨rfl, _⟩
    rfl
  streams := by
    rintro fs _ ⟨rfl, _⟩
    rfl
  holding := by
    rintro fs _ files streams ⟨rfl, hHolds⟩
    exact ⟨rfl, hHolding fs files streams hHolds⟩

/- What holds of a tree beside itself holds after a run. -/
theorem holds_final
    {α : Type}
    {action : Action FileSystem α}
    {fs : FileSystem}
    (hAction :
      action.Lockstep (fun fs other => fs = other ∧ Holds fs)
        fun _ => False)
    (hHolds : Holds fs) :
    Holds (action.final fs) := by
  unfold Step.final
  rcases hAction fs fs ⟨rfl, hHolds⟩ with
    ⟨result, fs', _, hLeft, _, _, hAfter⟩ | ⟨_, _, _, hNever⟩
  · rw [hLeft]
    exact hAfter
  · exact hNever.elim

/- A stream changes no names. -/
theorem likeness_sameNames
    (base : FileSystem) :
    Likeness (fun fs other => fs = other ∧ base.SameNames fs)
      fun _ => False :=
  likeness_itself
    (fun _ _ _ hSame => ⟨hSame.nodes, hSame.next⟩)
    (fun fs hSame => hSame.trans (sameNames_counted fs))

end FileSystem

end SplitStream
