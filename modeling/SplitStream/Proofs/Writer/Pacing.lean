import SplitStream.Proofs.Writer.Lagging

/-
  Calls of writers in two worlds that their channels keep in
  step. Where the first world may fail, a call comes to the
  same in both, or it reports the failure of a device; so a
  run of calls that report no such failure is the run of the
  calls in the other world.

  Main declarations:
    * `ContainerWriter.lockstep_call`
    * `Outlet.reports`
    * `Course.Unfailing`
    * `FrameWriter.Lagging.run_alongside`
    * `ContainerWriter.reporting`
-/

------------------------------------------------------------
-- Calls
------------------------------------------------------------

namespace SplitStream

variable
  {ω : Type} {Alike : ω → ω → Prop} {Lost : ω → Prop}

theorem ContainerWriter.lockstep_call
    (call : Call) :
    KeepsStep (Fits Alike Lost) Alike Lost
      (call.action : Action (ContainerWriter ω × ω) Unit) := by
  cases call with
  | write data => exact lockstep_write data
  | writeRange buffer offset length =>
    exact (Step.lockstep_ofExcept _).bind fun _ => lockstep_write _
  | flush => exact lockstep_flush
  | finish =>
    exact lockstep_finish.bind fun _ => Step.lockstep_pure ()
  | reset => exact lockstep_reset

------------------------------------------------------------
-- Reported Failures
------------------------------------------------------------

/-
  Beside two worlds that channels keep in step, an action
  comes to the same, or it reports the failure of a device.
-/
abbrev Reports
    {σ α : Type}
    (Fits : (ω → ω → Prop) → (ω → Prop) → σ → Prop)
    (Alike : ω → ω → Prop)
    (action : Action (σ × ω) α) : Prop :=
  action.Lags (Error.isIo · = true)
    (Abreast (Fits Alike fun _ => True) Alike)
    fun _ _ => True

/- What keeps step does so if all its failures are of devices. -/
theorem KeepsStep.reports
    {σ α : Type}
    {Fits : (ω → ω → Prop) → (ω → Prop) → σ → Prop}
    {action : Action (σ × ω) α}
    (hAction :
      KeepsStep (Fits Alike fun _ => True) Alike
        (fun _ => True) action)
    (hFails :
      ∀ state e,
        (action.perform state).1 = .error e → e.isIo = true) :
    Reports Fits Alike action where
  along := by
    intro s t hAlike
    rcases hAction s t hAlike with hSame | ⟨e, s', hLeft, _⟩
    · left
      exact hSame
    · right
      have hIo : e.isIo = true := hFails s e (by rw [hLeft])
      exact ⟨e, s', hLeft, hIo, trivial⟩
  behind := fun _ _ _ => trivial

theorem isIo_of_mapError
    {result : Except IoKind Unit}
    {e : Error}
    (h : result.mapError .io = .error e) :
    e.isIo = true := by
  cases result with
  | error kind =>
    cases h
    rfl
  | ok _ => cases h

namespace Capture

theorem reports_flush :
    Reports Fits Alike
      (flush : Action (Capture ω × ω) Unit) := by
  apply KeepsStep.reports lockstep_flush
  rintro ⟨capture, world⟩ e hFlush
  rw [flush, Step.perform_ofStep] at hFlush
  dsimp only at hFlush
  split at hFlush
  · cases hFlush
    rfl
  · exact isIo_of_mapError hFlush

theorem reports_record
    (offset : Nat) :
    Reports Fits Alike
      (record offset : Action (Capture ω × ω) Unit) := by
  apply Step.lags_get_bind
  · rintro ⟨capture, left⟩ ⟨_, right⟩ ⟨rfl, _⟩
    rfl
  · rintro ⟨capture, world⟩
    have hNote :
        Reports Fits Alike
          (modify fun pair : Capture ω × ω =>
            (pair.1.noted offset, pair.2)) := by
      apply Step.lags_modify
      · rintro ⟨capture, left⟩ ⟨_, right⟩ ⟨rfl, hFits, hAlike⟩
        exact ⟨rfl, hFits, hAlike⟩
      · exact fun _ _ _ => trivial
    have hRest :
        Reports Fits Alike
          (if batchEntries * FrameIndex.entrySize ≤
              capture.batch.size then
            flush >>= fun _ =>
              modify fun pair => (pair.1.noted offset, pair.2)
          else
            modify fun pair => (pair.1.noted offset, pair.2)) :=
      .ite (reports_flush.bind fun _ => hNote) hNote
    cases hLast : capture.last with
    | none =>
      simp only [hLast]
      exact hRest
    | some previous =>
      simp only [hLast]
      apply Step.Lags.ite _ hRest
      exact (Step.lags_throw _).bind fun _ => hRest

end Capture

namespace Outlet

theorem reports_onCapture
    {action : Action (Capture ω × ω) Unit}
    (hAction : Reports Capture.Fits Alike action) :
    Reports Fits Alike (onCapture action) where
  along := by
    rintro ⟨outlet, left⟩ ⟨_, right⟩ ⟨rfl, hFits, hAlike⟩
    rcases outlet with ⟨channel, written, _ | capture, frames⟩
    · exact Step.overtaken_of_same ⟨rfl, hFits, hAlike⟩
    · rcases hAction.along (capture, left) (capture, right)
        ⟨rfl, hFits.capture capture rfl, hAlike⟩ with
        ⟨result, ⟨next, left'⟩, ⟨_, right'⟩, hLeft, hRight, rfl,
          hNext, hBoth⟩ | ⟨e, ⟨next, left'⟩, hLeft, hFails, _⟩
      · left
        refine
          ⟨result, (⟨channel, written, some next, frames⟩, left'),
            (⟨channel, written, some next, frames⟩, right'),
            ?_, ?_, rfl, ⟨hFits.channel, ?_⟩, hBoth⟩
        · simp only [onCapture, Step.perform_ofStep, hLeft]
        · simp only [onCapture, Step.perform_ofStep, hRight]
        · intro last hLast
          cases hLast
          exact hNext
      · right
        refine
          ⟨e, (⟨channel, written, some next, frames⟩, left'), ?_,
            hFails, trivial⟩
        simp only [onCapture, Step.perform_ofStep, hLeft]
  behind := fun _ _ _ => trivial

/- What is done to an outlet reports failures of its channels. -/
theorem reports
    (Alike : ω → ω → Prop) :
    PutsLag (Error.isIo · = true)
      (Abreast (Fits Alike fun _ => True) Alike)
      fun _ _ => True where
  same := fun _ _ hAbreast => hAbreast.1
  capture := reports_onCapture Capture.reports_flush
  record := fun offset =>
    reports_onCapture (Capture.reports_record offset)
  channel :=
    KeepsStep.reports lockstep_flushChannel fun _ _ hFlush =>
      isIo_of_mapError hFlush
  put := fun piece =>
    KeepsStep.reports (lockstep_put piece) fun _ _ hPut =>
      isIo_of_mapError hPut
  count := by
    apply Step.lags_modify
    · rintro ⟨outlet, left⟩ ⟨_, right⟩ ⟨rfl, hFits, hAlike⟩
      exact ⟨rfl, ⟨hFits.channel, hFits.capture⟩, hAlike⟩
    · exact fun _ _ _ => trivial

end Outlet

------------------------------------------------------------
-- Runs
------------------------------------------------------------

/- No call has reported the failure of a device. -/
def Course.Unfailing
    {W : Type → Type}
    (course : Course W ω) : Prop :=
  ∀ entry ∈ course.log, channelFailed entry.2 = false

namespace FrameWriter

variable
  {W : Type → Type} [FrameWriter W] {origin : Regrouper}
  {AlikeOutlets : Outlet ω × ω → Outlet ω × ω → Prop}

/-
  The calls of a run that reports no failure of a device come
  to the same in the other world.
-/
theorem Lagging.run_alongside
    (h :
      Lagging W (Error.isIo · = true) AlikeOutlets
        (fun _ _ => True) origin)
    (left right : Course W ω)
    (calls : List Call)
    (hUnfailing : (left.run calls).Unfailing)
    (hAlong :
      Alongside origin AlikeOutlets (left.writer, left.world)
        (right.writer, right.world)) :
    Alongside origin AlikeOutlets
      ((left.run calls).writer, (left.run calls).world)
      ((right.run calls).writer, (right.run calls).world) := by
  induction calls generalizing left right with
  | nil => exact hAlong
  | cons call calls ih =>
    rcases (h.call call).along _ _ hAlong with
      ⟨result, ⟨writer, world⟩, ⟨other, next⟩, hLeft, hRight,
        hNext⟩ | ⟨e, ⟨writer, world⟩, hLeft, hIo, _⟩
    · apply ih _ _ hUnfailing
      rw [Course.step_eq hLeft, Course.step_eq hRight]
      exact hNext
    · have hEntry :
          (call, .error e) ∈ (left.step call).log := by
        rw [Course.step_eq hLeft]
        simp
      have hLater :=
        (Course.log_prefix_run (left.step call) calls).subset
          hEntry
      have hFailed : channelFailed (.error e : Except Error Unit) = true :=
        hIo
      cases hFailed.symm.trans (hUnfailing _ hLater)

end FrameWriter

/- Container writers report failures of their channels. -/
theorem ContainerWriter.reporting
    (Alike : ω → ω → Prop)
    (origin : Regrouper) :
    FrameWriter.Lagging ContainerWriter (Error.isIo · = true)
      (Abreast (Outlet.Fits Alike fun _ => True) Alike)
      (fun _ _ => True) origin :=
  lagging (partsLag_of_puts (Outlet.reports Alike)) origin

end SplitStream
