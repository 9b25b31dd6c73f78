import SplitStream.Proofs.Writer.Keeping
import SplitStream.Proofs.Writer.Lockstep
import SplitStream.Proofs.Writer.RawKeeping

/-
  Writers in two worlds side by side. Every call of a writer
  keeps in step, and a call that succeeds in the world that
  may fail comes to the same in the one that does not.

  Main declarations:
    * `FrameWriter.lockstep_within_outlet`
    * `FrameWriter.lockstep_within_parts`
    * `ContainerWriter.lockstep_write`
    * `ContainerWriter.lockstep_finish`
    * `ContainerWriter.lockstep_close`
    * `ContainerWriter.lockstep_new`
    * `ContainerWriter.Keeps.fits`
    * `RawWriter.lockstep_write`
    * `RawWriter.lockstep_finish`
    * `RawWriter.lockstep_close`
    * `FrameWriter.lockstep_writeAll`
    * `FrameWriter.withWriter_paced`
-/

------------------------------------------------------------
-- Parts Of Writers
------------------------------------------------------------

namespace SplitStream

variable
  {ω : Type} {Alike : ω → ω → Prop} {Lost : ω → Prop}

namespace FrameWriter

variable {W : Type → Type} [FrameWriter W] {α : Type}

/- What keeps step on an outlet does so within a writer. -/
theorem lockstep_within_outlet
    (set : Outlet ω → W ω → W ω)
    (hOutlet : ∀ next writer, outlet (set next writer) = next)
    {action : Action (Outlet ω × ω) α}
    (hAction :
      KeepsStep (Outlet.Fits Alike Lost) Alike Lost action) :
    KeepsStep
      (fun writer : W ω => (outlet writer).Fits Alike Lost)
      Alike Lost
      (Step.within
        (fun state => (outlet state.1, state.2))
        (fun next state => (set next.1 state.1, next.2))
        action) := by
  apply hAction.within
  · intro s t hAbreast
    exact ⟨congrArg outlet hAbreast.1, hAbreast.2⟩
  · intro s t a b hAbreast hParts
    have hFits :
        (outlet (set a.1 s.1)).Fits Alike Lost := by
      rw [hOutlet]
      exact hParts.2.1
    refine ⟨?_, hFits, hParts.2.2⟩
    rw [hAbreast.1, hParts.1]
  · intro _ _ hLost
    exact hLost

/- So does what keeps step on a regrouper and an outlet. -/
theorem lockstep_within_parts
    (set : Regrouper → Outlet ω → W ω → W ω)
    (hOutlet :
      ∀ part next writer, outlet (set part next writer) = next)
    {action : Action (Regrouper × Outlet ω × ω) α}
    (hAction :
      KeepsStep (fun _ => True)
        (Abreast (Outlet.Fits Alike Lost) Alike)
        (fun state => Lost state.2) action) :
    KeepsStep
      (fun writer : W ω => (outlet writer).Fits Alike Lost)
      Alike Lost
      (Step.within
        (fun state =>
          (regrouper state.1, outlet state.1, state.2))
        (fun next state =>
          (set next.1 next.2.1 state.1, next.2.2))
        action) := by
  apply hAction.within
  · intro s t hAbreast
    exact
      ⟨congrArg regrouper hAbreast.1, trivial,
        congrArg outlet hAbreast.1, hAbreast.2⟩
  · intro s t a b hAbreast hParts
    rcases hParts with ⟨hRegrouper, _, hSame, hPart, hAlike⟩
    have hFits :
        (outlet (set a.1 a.2.1 s.1)).Fits Alike Lost := by
      rw [hOutlet]
      exact hPart
    refine ⟨?_, hFits, hAlike⟩
    rw [hAbreast.1, hRegrouper, hSame]
  · intro _ _ hLost
    exact hLost

end FrameWriter

------------------------------------------------------------
-- Container Writers
------------------------------------------------------------

namespace ContainerWriter

variable {α : Type}

/- The outlet of a writer keeps the worlds in step. -/
def Fits
    (Alike : ω → ω → Prop)
    (Lost : ω → Prop)
    (writer : ContainerWriter ω) : Prop :=
  writer.outlet.Fits Alike Lost

theorem lockstep_onOutlet
    {action : Action (Outlet ω × ω) α}
    (hAction :
      KeepsStep (Outlet.Fits Alike Lost) Alike Lost action) :
    KeepsStep (Fits Alike Lost) Alike Lost
      (onOutlet action) :=
  FrameWriter.lockstep_within_outlet
    (fun outlet (writer : ContainerWriter ω) =>
      { writer with outlet := outlet })
    (fun _ _ => rfl) hAction

theorem lockstep_onRegrouper
    {action : Action (Regrouper × Outlet ω × ω) α}
    (hAction :
      KeepsStep (fun _ => True)
        (Abreast (Outlet.Fits Alike Lost) Alike)
        (fun state => Lost state.2) action) :
    KeepsStep (Fits Alike Lost) Alike Lost
      (onRegrouper action) :=
  FrameWriter.lockstep_within_parts
    (fun regrouper outlet (writer : ContainerWriter ω) =>
      { writer with
        outlet := outlet
        regrouper := regrouper })
    (fun _ _ _ => rfl) hAction

/- What is done with the current writer keeps step if it does. -/
theorem lockstep_current_bind
    {next : ContainerWriter ω → Action (ContainerWriter ω × ω) α}
    (hNext :
      ∀ writer,
        KeepsStep (Fits Alike Lost) Alike Lost (next writer)) :
    KeepsStep (Fits Alike Lost) Alike Lost
      (current >>= next) := by
  rintro ⟨writer, left⟩ ⟨other, right⟩ hBoth
  have hSame : writer = other := hBoth.1
  subst hSame
  have hCurrent :
      ∀ world,
        current.perform (writer, world) =
          (.ok writer, writer, world) :=
    fun _ => rfl
  rw [Step.perform_bind_of_ok (hCurrent left),
    Step.perform_bind_of_ok (hCurrent right)]
  exact hNext writer (writer, left) (writer, right) hBoth

theorem lockstep_enter
    (stage : MemberStage) :
    KeepsStep (Fits Alike Lost) Alike Lost
      (enter stage : Action (ContainerWriter ω × ω) Unit) := by
  apply Step.lockstep_modify
  rintro ⟨writer, left⟩ ⟨_, right⟩ ⟨rfl, hFits, hAlike⟩
  exact ⟨rfl, hFits, hAlike⟩

theorem lockstep_openMember :
    KeepsStep (Fits Alike Lost) Alike Lost
      (openMember : Action (ContainerWriter ω × ω) Unit) := by
  apply lockstep_current_bind
  intro writer
  apply Step.Lockstep.ite _ (Step.lockstep_pure ())
  apply (lockstep_onOutlet
    (Outlet.lockstep_putHeader writer.header)).bind
  intro _
  exact lockstep_enter .opened

theorem lockstep_write
    (data : Bytes) :
    KeepsStep (Fits Alike Lost) Alike Lost
      (write data : Action (ContainerWriter ω × ω) Unit) := by
  apply lockstep_current_bind
  intro writer
  have hRegroup :
      KeepsStep (Fits Alike Lost) Alike Lost
        (onRegrouper (Regrouper.write writer.emission data)) :=
    lockstep_onRegrouper
      (Regrouper.lockstep_write
        (Outlet.lockstep_emit
          (Frame.containerPieces writer.checksums))
        data)
  have hTake :
      KeepsStep (Fits Alike Lost) Alike Lost
        (if !data.isEmpty then
          openMember >>= fun _ =>
            onRegrouper (Regrouper.write writer.emission data)
        else
          pure ()) :=
    .ite (lockstep_openMember.bind fun _ => hRegroup)
      (Step.lockstep_pure ())
  apply Step.Lockstep.ite _ hTake
  exact (Step.lockstep_throw _).bind fun _ => hTake

theorem lockstep_flushFrames :
    KeepsStep (Fits Alike Lost) Alike Lost
      (flushFrames : Action (ContainerWriter ω × ω) Unit) := by
  apply lockstep_current_bind
  intro writer
  apply Step.Lockstep.ite _ (Step.lockstep_pure ())
  apply lockstep_openMember.bind
  intro _
  exact
    lockstep_onRegrouper
      (Regrouper.lockstep_flush
        (Outlet.lockstep_emit
          (Frame.containerPieces writer.checksums)))

theorem lockstep_finish :
    KeepsStep (Fits Alike Lost) Alike Lost
      (finish : Action (ContainerWriter ω × ω) Nat) := by
  apply lockstep_current_bind
  intro writer
  apply Step.Lockstep.ite (Step.lockstep_pure _)
  apply lockstep_openMember.bind
  intro _
  apply lockstep_flushFrames.bind
  intro _
  apply (lockstep_onOutlet
    (Outlet.lockstep_put Frame.terminator)).bind
  intro _
  apply (lockstep_onOutlet Outlet.lockstep_flush).bind
  intro _
  apply (lockstep_enter .finished).bind
  intro _
  apply lockstep_current_bind
  intro writer
  exact Step.lockstep_pure _

theorem lockstep_flush :
    KeepsStep (Fits Alike Lost) Alike Lost
      (flush : Action (ContainerWriter ω × ω) Unit) :=
  lockstep_flushFrames.bind fun _ =>
    lockstep_onOutlet Outlet.lockstep_flush

theorem lockstep_reset :
    KeepsStep (Fits Alike Lost) Alike Lost
      (reset : Action (ContainerWriter ω × ω) Unit) := by
  apply Step.lockstep_modify
  rintro ⟨writer, left⟩ ⟨_, right⟩ ⟨rfl, hFits, hAlike⟩
  exact ⟨rfl, hFits, hAlike⟩

theorem lockstep_close :
    KeepsStep (Fits Alike Lost) Alike Lost
      (close : Action (ContainerWriter ω × ω) Unit) := by
  apply lockstep_current_bind
  intro writer
  have hFlush :
      KeepsStep (Fits Alike Lost) Alike Lost
        (onOutlet (Outlet.onCapture Capture.flush) >>= fun _ =>
          onOutlet Outlet.flushChannel) :=
    (lockstep_onOutlet
      (Outlet.lockstep_onCapture Capture.lockstep_flush)).bind
      fun _ => lockstep_onOutlet Outlet.lockstep_flushChannel
  apply Step.Lockstep.ite _ hFlush
  exact lockstep_finish.bind fun _ => hFlush

/- A writer fits if the channels of its receivers do. -/
theorem Keeps.fits
    {receivers : Receivers ω}
    {codec : Codec}
    {fields : Header}
    {writer : ContainerWriter ω}
    {world : ω}
    {captured torn : Bool}
    {kept : Bytes}
    (h :
      writer.Keeps receivers codec fields world captured torn
        kept)
    (hData : receivers.data.InStep Alike Lost)
    (hIndex :
      captured = true → receivers.index.InStep Alike Lost) :
    writer.Fits Alike Lost := by
  rcases h with ⟨segments, hStands, _⟩
  exact
    (Outlet.stands_iff_carries.mp hStands.outlet).fits hData
      hIndex

/- The first header is written in step. -/
theorem lockstep_new
    {channel : Channel ω}
    (hChannel : channel.InStep Alike Lost)
    (codec : Codec)
    (options : WriterOptions)
    (clock : UInt32) :
    (new channel codec options clock).Lockstep Alike Lost := by
  intro left right hAlike
  have hFits : (Outlet.new channel).Fits Alike Lost :=
    ⟨hChannel, by simp [Outlet.new]⟩
  cases hRegrouper : Regrouper.new codec options.blockSize with
  | error e =>
    left
    have hMake := perform_new_of_refused hRegrouper channel clock
    exact
      ⟨.error e, left, right, hMake left, hMake right, hAlike⟩
  | ok regrouper =>
    have hMake :=
      perform_new_of_regrouper hRegrouper channel clock
    rcases Outlet.lockstep_putHeader
      (headerOf codec options clock)
      (.new channel, left) (.new channel, right)
      ⟨rfl, hFits, hAlike⟩ with
      ⟨result, ⟨outlet, left'⟩, ⟨_, right'⟩, hLeft, hRight, rfl,
        _, hBoth⟩ | ⟨e, ⟨outlet, left'⟩, hLeft, hLost⟩
    · left
      refine
        ⟨result.map fun _ =>
            { outlet := outlet
              regrouper := regrouper
              header := headerOf codec options clock
              checksums := options.checksums
              stage := .opened },
          left', right', ?_, ?_, hBoth⟩
      · rw [hMake]
        simp only [hLeft]
      · rw [hMake]
        simp only [hRight]
    · right
      refine ⟨e, left', ?_, hLost⟩
      rw [hMake]
      simp only [hLeft]
      rfl

end ContainerWriter

------------------------------------------------------------
-- Raw Writers
------------------------------------------------------------

namespace RawWriter

variable {α : Type}

/- The outlet of a writer keeps the worlds in step. -/
def Fits
    (Alike : ω → ω → Prop)
    (Lost : ω → Prop)
    (writer : RawWriter ω) : Prop :=
  writer.outlet.Fits Alike Lost

theorem lockstep_onOutlet
    {action : Action (Outlet ω × ω) α}
    (hAction :
      KeepsStep (Outlet.Fits Alike Lost) Alike Lost action) :
    KeepsStep (Fits Alike Lost) Alike Lost
      (onOutlet action) :=
  FrameWriter.lockstep_within_outlet
    (fun outlet (writer : RawWriter ω) =>
      { writer with outlet := outlet })
    (fun _ _ => rfl) hAction

theorem lockstep_onRegrouper
    {action : Action (Regrouper × Outlet ω × ω) α}
    (hAction :
      KeepsStep (fun _ => True)
        (Abreast (Outlet.Fits Alike Lost) Alike)
        (fun state => Lost state.2) action) :
    KeepsStep (Fits Alike Lost) Alike Lost
      (onRegrouper action) :=
  FrameWriter.lockstep_within_parts
    (fun regrouper outlet (_ : RawWriter ω) =>
      { outlet := outlet
        regrouper := regrouper })
    (fun _ _ _ => rfl) hAction

theorem lockstep_write
    (data : Bytes) :
    KeepsStep (Fits Alike Lost) Alike Lost
      (write data : Action (RawWriter ω × ω) Unit) :=
  lockstep_onRegrouper
    (Regrouper.lockstep_write
      (Outlet.lockstep_emit Frame.rawPieces) data)

theorem lockstep_flush :
    KeepsStep (Fits Alike Lost) Alike Lost
      (flush : Action (RawWriter ω × ω) Unit) :=
  (lockstep_onRegrouper
    (Regrouper.lockstep_flush
      (Outlet.lockstep_emit Frame.rawPieces))).bind
    fun _ => lockstep_onOutlet Outlet.lockstep_flush

theorem lockstep_finish :
    KeepsStep (Fits Alike Lost) Alike Lost
      (finish : Action (RawWriter ω × ω) Nat) := by
  apply lockstep_flush.bind
  intro _
  apply Step.lockstep_get_bind
  · rintro ⟨writer, left⟩ ⟨_, right⟩ ⟨rfl, _⟩
    rfl
  · intro _ _ _
    exact Step.lockstep_pure _

theorem lockstep_close :
    KeepsStep (Fits Alike Lost) Alike Lost
      (close : Action (RawWriter ω × ω) Unit) :=
  lockstep_finish.bind fun _ =>
    lockstep_onOutlet
      (Outlet.lockstep_onCapture Capture.lockstep_flush)

/- A writer fits if the channels of its receivers do. -/
theorem Keeps.fits
    {receivers : Receivers ω}
    {codec : Codec}
    {blockSize : Nat}
    {writer : RawWriter ω}
    {world : ω}
    {captured : Bool}
    {kept : Bytes}
    (h :
      Keeps receivers codec blockSize captured writer world
        kept)
    (hData : receivers.data.InStep Alike Lost)
    (hIndex :
      captured = true → receivers.index.InStep Alike Lost) :
    writer.Fits Alike Lost := by
  rcases h with ⟨contents, hStands, _⟩
  exact hStands.outlet.fits hData hIndex

end RawWriter

------------------------------------------------------------
-- Any Writers
------------------------------------------------------------

namespace FrameWriter

variable {α : Type} {W : Type → Type}

theorem lockstep_writeAll
    [FrameWriter W]
    {Fits : W ω → Prop}
    (hWrite :
      ∀ bs,
        KeepsStep Fits Alike Lost
          (write bs : Action (W ω × ω) Unit))
    (pieces : List Bytes) :
    KeepsStep Fits Alike Lost
      (writeAll pieces : Action (W ω × ω) Unit) := by
  induction pieces with
  | nil => exact Step.lockstep_pure ()
  | cons piece pieces ih => exact (hWrite piece).bind fun _ => ih

/- An action that keeps in step returns a fitting writer. -/
theorem withWriter_paced
    {Fits : W ω → Prop}
    {action : Action (W ω × ω) α}
    {writer : W ω}
    (hAction : KeepsStep Fits Alike Lost action)
    (hFits : Fits writer)
    {left right : ω}
    (hAlike : Alike left right) :
    (∃ result left' right',
      (withWriter writer action).perform left =
        (result, left') ∧
      (withWriter writer action).perform right =
        (result, right') ∧
      Alike left' right' ∧
      ∀ a writer', result = .ok (a, writer') → Fits writer') ∨
    ∃ e left',
      (withWriter writer action).perform left =
        (.error e, left') ∧
      Lost left' := by
  rcases hAction (writer, left) (writer, right)
    ⟨rfl, hFits, hAlike⟩ with
    ⟨result, ⟨writer', left'⟩, ⟨other, right'⟩, hLeft, hRight,
      hSame, hFits', hBoth⟩ | ⟨e, ⟨writer', left'⟩, hLeft, hLost⟩
  · have hWriter : writer' = other := hSame
    subst hWriter
    left
    refine
      ⟨result.map fun a => (a, writer'), left', right', ?_, ?_,
        hBoth, ?_⟩
    · simp only [withWriter, Step.perform_ofStep, hLeft]
    · simp only [withWriter, Step.perform_ofStep, hRight]
    · intro a later hLater
      cases result with
      | error e => cases hLater
      | ok b =>
        cases hLater
        exact hFits'
  · right
    refine ⟨e, left', ?_, hLost⟩
    simp only [withWriter, Step.perform_ofStep, hLeft, Except.map]

end FrameWriter

end SplitStream
