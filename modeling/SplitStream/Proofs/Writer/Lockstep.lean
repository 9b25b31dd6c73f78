import SplitStream.Proofs.Writer.Outlets
import SplitStream.Proofs.Writer.Simulation

/-
  Runs in two worlds side by side. One of the worlds may fail
  where the other does not; as long as it does not fail, both
  runs come to the same results. Outlets and regroupers touch
  their world only through channels, so they keep in step if
  these do.

  Main declarations:
    * `Step.Lockstep`
    * `Step.Lockstep.bind`
    * `Step.Lockstep.within`
    * `Channel.InStep`
    * `KeepsStep`
    * `Outlet.lockstep_emit`
    * `Outlet.lockstep_flush`
    * `Regrouper.lockstep_write`
    * `Regrouper.lockstep_flush`
-/

------------------------------------------------------------
-- Steps
------------------------------------------------------------

namespace SplitStream

namespace Step

variable {ε σ τ α β : Type}

/-
  Two runs have come to the same result and to states that
  are alike, or the first one has failed in a lost state.
-/
abbrev Paced
    (Alike : σ → σ → Prop)
    (Lost : σ → Prop)
    (left right : Except ε α × σ) : Prop :=
  (∃ result s t,
    left = (result, s) ∧ right = (result, t) ∧ Alike s t) ∨
  ∃ e s, left = (.error e, s) ∧ Lost s

/- The runs of a step from states that are alike. -/
def Lockstep
    (Alike : σ → σ → Prop)
    (Lost : σ → Prop)
    (step : Step ε σ α) : Prop :=
  ∀ s t,
    Alike s t →
      Paced Alike Lost (step.perform s) (step.perform t)

variable {Alike : σ → σ → Prop} {Lost : σ → Prop}

/- A step in lockstep is a step that simulates itself. -/
theorem lockstep_iff_simulates
    {step : Step ε σ α} :
    step.Lockstep Alike Lost ↔
      Simulates (fun _ => True) Alike (fun _ => Lost)
        step step := by
  constructor
  · intro h s t hAlike
    rcases h s t hAlike with
      ⟨result, s', t', hLeft, hRight, hBoth⟩ | hLost
    · left
      exact
        ⟨result, s', t', hLeft, hRight, hBoth,
          fun _ _ => trivial⟩
    · right
      exact hLost
  · intro h s t hAlike
    rcases h s t hAlike with
      ⟨result, s', t', hLeft, hRight, hBoth, _⟩ | hLost
    · left
      exact ⟨result, s', t', hLeft, hRight, hBoth⟩
    · right
      exact hLost

theorem lockstep_pure
    (a : α) :
    (pure a : Step ε σ α).Lockstep Alike Lost :=
  lockstep_iff_simulates.mpr (simulates_pure a)

theorem lockstep_throw
    (e : ε) :
    (throw e : Step ε σ α).Lockstep Alike Lost :=
  lockstep_iff_simulates.mpr (simulates_throw trivial)

theorem lockstep_ofExcept
    (result : Except ε α) :
    (ofExcept result : Step ε σ α).Lockstep Alike Lost :=
  lockstep_iff_simulates.mpr
    (simulates_ofExcept fun _ _ => trivial)

theorem lockstep_modify
    {f : σ → σ}
    (hAlike : ∀ s t, Alike s t → Alike (f s) (f t)) :
    (modify f : Step ε σ PUnit).Lockstep Alike Lost :=
  lockstep_iff_simulates.mpr (simulates_modify hAlike)

theorem Lockstep.bind
    {step : Step ε σ α}
    {next : α → Step ε σ β}
    (hStep : step.Lockstep Alike Lost)
    (hNext : ∀ a, (next a).Lockstep Alike Lost) :
    (step >>= next).Lockstep Alike Lost := by
  rw [lockstep_iff_simulates] at hStep ⊢
  exact hStep.bind fun a => lockstep_iff_simulates.mp (hNext a)

/- What is done with a state must not tell alike states apart. -/
theorem lockstep_get_bind
    {next : σ → Step ε σ β}
    (hSame : ∀ s t, Alike s t → next s = next t)
    (hNext :
      ∀ s t, Alike s t → (next s).Lockstep Alike Lost) :
    (get >>= next).Lockstep Alike Lost := by
  apply lockstep_iff_simulates.mpr
  apply simulates_get_bind
  intro s t hAlike
  rw [← hSame s t hAlike]
  exact lockstep_iff_simulates.mp (hNext s t hAlike) s t hAlike

theorem Lockstep.ite
    {condition : Prop}
    [Decidable condition]
    {left right : Step ε σ α}
    (hLeft : left.Lockstep Alike Lost)
    (hRight : right.Lockstep Alike Lost) :
    (if condition then left else right).Lockstep Alike Lost := by
  rw [lockstep_iff_simulates] at hLeft hRight ⊢
  exact hLeft.ite hRight

/- A step on parts keeps the wholes in step. -/
theorem Lockstep.within
    {AlikePart : τ → τ → Prop}
    {LostPart : τ → Prop}
    {step : Step ε τ α}
    {get : σ → τ}
    {set : τ → σ → σ}
    (hStep : step.Lockstep AlikePart LostPart)
    (hGet : ∀ s t, Alike s t → AlikePart (get s) (get t))
    (hSet :
      ∀ s t a b,
        Alike s t →
          AlikePart a b → Alike (set a s) (set b t))
    (hLost : ∀ s a, LostPart a → Lost (set a s)) :
    (within get set step).Lockstep Alike Lost := by
  rw [lockstep_iff_simulates] at hStep ⊢
  exact hStep.within hGet hSet fun _ => hLost

end Step

------------------------------------------------------------
-- Channels
------------------------------------------------------------

variable {ω σ : Type}

namespace Channel

/- The answers of a channel keep two worlds in step. -/
structure InStep
    (Alike : ω → ω → Prop)
    (Lost : ω → Prop)
    (channel : Channel ω) : Prop where
  write :
    ∀ bs,
      (Step.ofStep (channel.write bs)).Lockstep Alike Lost
  flush : (Step.ofStep channel.flush).Lockstep Alike Lost

variable
  {Alike : ω → ω → Prop} {Lost : ω → Prop}
  {channel : Channel ω}

theorem InStep.lockstep_deliverFrom
    (hChannel : channel.InStep Alike Lost)
    (taken : Nat)
    (bs : Bytes)
    (left right : ω)
    (hAlike : Alike left right) :
    (∃ result n left' right',
      channel.deliverFrom taken bs left = ⟨result, n, left'⟩ ∧
      channel.deliverFrom taken bs right =
        ⟨result, n, right'⟩ ∧
      Alike left' right') ∨
    ∃ kind n left',
      channel.deliverFrom taken bs left =
        ⟨.error kind, n, left'⟩ ∧
      Lost left' := by
  fun_induction channel.deliverFrom taken bs left
    generalizing right with
  | case1 taken left =>
    left
    refine ⟨.ok (), taken, left, right, rfl, ?_, hAlike⟩
    rw [deliverFrom]
  | case2 taken left b rest kind next hWrite =>
    rcases hChannel.write (b :: rest) left right hAlike with
      ⟨result, left', right', hLeft, hRight, hBoth⟩ |
        ⟨e, left', hLeft, hLost⟩
    · rw [Step.perform_ofStep] at hLeft hRight
      rw [hWrite] at hLeft
      cases hLeft
      left
      refine ⟨.error kind, taken, next, right', rfl, ?_, hBoth⟩
      rw [deliverFrom, hRight]
    · rw [Step.perform_ofStep, hWrite] at hLeft
      cases hLeft
      right
      exact ⟨kind, taken, next, rfl, hLost⟩
  | case3 taken left b rest next hWrite =>
    rcases hChannel.write (b :: rest) left right hAlike with
      ⟨result, left', right', hLeft, hRight, hBoth⟩ |
        ⟨e, left', hLeft, hLost⟩
    · rw [Step.perform_ofStep] at hLeft hRight
      rw [hWrite] at hLeft
      cases hLeft
      left
      refine
        ⟨.error .writeZero, taken, next, right', rfl, ?_, hBoth⟩
      rw [deliverFrom, hRight]
    · rw [Step.perform_ofStep, hWrite] at hLeft
      cases hLeft
  | case4 taken left b rest n next hWrite ih =>
    rcases hChannel.write (b :: rest) left right hAlike with
      ⟨result, left', right', hLeft, hRight, hBoth⟩ |
        ⟨e, left', hLeft, hLost⟩
    · rw [Step.perform_ofStep] at hLeft hRight
      rw [hWrite] at hLeft
      cases hLeft
      have hUnfold :
          channel.deliverFrom taken (b :: rest) right =
            channel.deliverFrom (taken + (n + 1)) (rest.drop n)
              right' := by
        rw [deliverFrom, hRight]
      rw [hUnfold]
      exact ih right' hBoth
    · rw [Step.perform_ofStep, hWrite] at hLeft
      cases hLeft

/- A delivery is one of a channel's writes after another. -/
theorem InStep.deliver
    (hChannel : channel.InStep Alike Lost)
    (bs : Bytes)
    {left right : ω}
    (hAlike : Alike left right) :
    (∃ result n left' right',
      channel.deliver bs left = ⟨result, n, left'⟩ ∧
      channel.deliver bs right = ⟨result, n, right'⟩ ∧
      Alike left' right') ∨
    ∃ kind n left',
      channel.deliver bs left = ⟨.error kind, n, left'⟩ ∧
      Lost left' :=
  hChannel.lockstep_deliverFrom 0 bs left right hAlike

end Channel

------------------------------------------------------------
-- Parts Beside A World
------------------------------------------------------------

/-
  The same part beside two worlds that are alike. The part
  must fit: its channels keep the worlds in step.
-/
def Abreast
    (Fits : σ → Prop)
    (Alike : ω → ω → Prop)
    (left right : σ × ω) : Prop :=
  left.1 = right.1 ∧ Fits left.1 ∧ Alike left.2 right.2

/- An action on a part and a world that keeps in step. -/
def KeepsStep
    {α : Type}
    (Fits : σ → Prop)
    (Alike : ω → ω → Prop)
    (Lost : ω → Prop)
    (action : Action (σ × ω) α) : Prop :=
  action.Lockstep (Abreast Fits Alike) fun state => Lost state.2

variable {Alike : ω → ω → Prop} {Lost : ω → Prop}

------------------------------------------------------------
-- Captures
------------------------------------------------------------

namespace Capture

/- The channel of a capture keeps the worlds in step. -/
def Fits
    (Alike : ω → ω → Prop)
    (Lost : ω → Prop)
    (capture : Capture ω) : Prop :=
  capture.channel.InStep Alike Lost

theorem lockstep_flush :
    KeepsStep (Fits Alike Lost) Alike Lost
      (flush : Action (Capture ω × ω) Unit) := by
  rintro ⟨capture, left⟩ ⟨_, right⟩ ⟨rfl, hFits, hAlike⟩
  have hChannel : capture.channel.InStep Alike Lost := hFits
  rcases hChannel.deliver capture.batch.toBytes hAlike with
    ⟨result, n, left', right', hLeft, hRight, hBoth⟩ |
      ⟨kind, n, left', hLeft, hLost⟩
  · cases result with
    | error kind =>
      left
      refine
        ⟨.error (.io kind), (capture, left'), (capture, right'),
          ?_, ?_, rfl, hFits, hBoth⟩
      · simp only [flush, Step.perform_ofStep, hLeft]
      · simp only [flush, Step.perform_ofStep, hRight]
    | ok _ =>
      rcases hChannel.flush left' right' hBoth with
        ⟨result, left'', right'', hFirst, hSecond, hLast⟩ |
          ⟨kind, left'', hFirst, hLost⟩
      · rw [Step.perform_ofStep] at hFirst hSecond
        left
        refine
          ⟨result.mapError .io,
            ({ capture with batch := .empty }, left''),
            ({ capture with batch := .empty }, right''),
            ?_, ?_, rfl, hFits, hLast⟩
        · simp only [flush, Step.perform_ofStep, hLeft, hFirst]
        · simp only [flush, Step.perform_ofStep, hRight, hSecond]
      · rw [Step.perform_ofStep] at hFirst
        right
        refine
          ⟨.io kind, ({ capture with batch := .empty }, left''),
            ?_, hLost⟩
        simp only [flush, Step.perform_ofStep, hLeft, hFirst]
        rfl
  · right
    refine ⟨.io kind, (capture, left'), ?_, hLost⟩
    simp only [flush, Step.perform_ofStep, hLeft]

theorem lockstep_record
    (offset : Nat) :
    KeepsStep (Fits Alike Lost) Alike Lost
      (record offset : Action (Capture ω × ω) Unit) := by
  apply Step.lockstep_get_bind
  · rintro ⟨capture, left⟩ ⟨_, right⟩ ⟨rfl, _⟩
    rfl
  · rintro ⟨capture, left⟩ _ _
    have hNote :
        KeepsStep (Fits Alike Lost) Alike Lost
          (modify fun pair => (pair.1.noted offset, pair.2)) := by
      apply Step.lockstep_modify
      rintro ⟨capture, left⟩ ⟨_, right⟩ ⟨rfl, hFits, hAlike⟩
      exact ⟨rfl, hFits, hAlike⟩
    have hRest :
        KeepsStep (Fits Alike Lost) Alike Lost
          (if batchEntries * FrameIndex.entrySize ≤
              capture.batch.size then
            flush >>= fun _ =>
              modify fun pair => (pair.1.noted offset, pair.2)
          else
            modify fun pair => (pair.1.noted offset, pair.2)) :=
      .ite (lockstep_flush.bind fun _ => hNote) hNote
    cases hLast : capture.last with
    | none =>
      simp only [hLast]
      exact hRest
    | some previous =>
      simp only [hLast]
      apply Step.Lockstep.ite _ hRest
      exact (Step.lockstep_throw _).bind fun _ => hRest

end Capture

------------------------------------------------------------
-- Outlets
------------------------------------------------------------

namespace Outlet

/- Every channel of an outlet keeps the worlds in step. -/
structure Fits
    (Alike : ω → ω → Prop)
    (Lost : ω → Prop)
    (outlet : Outlet ω) : Prop where
  channel : outlet.channel.InStep Alike Lost
  capture :
    ∀ capture ∈ outlet.capture, capture.Fits Alike Lost

theorem lockstep_put
    (bs : Bytes) :
    KeepsStep (Fits Alike Lost) Alike Lost
      (put bs : Action (Outlet ω × ω) Unit) := by
  rintro ⟨outlet, left⟩ ⟨_, right⟩ ⟨rfl, hFits, hAlike⟩
  have hOutlet : outlet.Fits Alike Lost := hFits
  rcases hOutlet.channel.deliver bs hAlike with
    ⟨result, n, left', right', hLeft, hRight, hBoth⟩ |
      ⟨kind, n, left', hLeft, hLost⟩
  · left
    refine
      ⟨result.mapError .io,
        ({ outlet with written := outlet.written + n }, left'),
        ({ outlet with written := outlet.written + n }, right'),
        ?_, ?_, rfl, ⟨hOutlet.channel, hOutlet.capture⟩, hBoth⟩
    · simp only [put, Step.perform_ofStep, hLeft]
    · simp only [put, Step.perform_ofStep, hRight]
  · right
    refine
      ⟨.io kind,
        ({ outlet with written := outlet.written + n }, left'),
        ?_, hLost⟩
    simp only [put, Step.perform_ofStep, hLeft]
    rfl

theorem lockstep_putAll
    (pieces : List Bytes) :
    KeepsStep (Fits Alike Lost) Alike Lost
      (putAll pieces : Action (Outlet ω × ω) Unit) := by
  induction pieces with
  | nil => exact Step.lockstep_pure ()
  | cons piece pieces ih =>
    exact (lockstep_put piece).bind fun _ => ih

theorem lockstep_putHeader
    (fields : Header) :
    KeepsStep (Fits Alike Lost) Alike Lost
      (putHeader fields : Action (Outlet ω × ω) Nat) := by
  have hPut :
      KeepsStep (Fits Alike Lost) Alike Lost
        (putAll fields.pieces >>= fun _ =>
          pure fields.writtenLength) :=
    (lockstep_putAll fields.pieces).bind fun _ =>
      Step.lockstep_pure _
  apply Step.Lockstep.ite _ hPut
  exact (Step.lockstep_throw _).bind fun _ => hPut

/-
  An action on captures comes to the same beside both worlds,
  and changes nothing else of the outlet.
-/
theorem paced_onCapture
    {action : Action (Capture ω × ω) Unit}
    (hAction :
      KeepsStep (Capture.Fits Alike Lost) Alike Lost action)
    {outlet : Outlet ω}
    (hFits :
      ∀ capture ∈ outlet.capture, capture.Fits Alike Lost)
    {left right : ω}
    (hAlike : Alike left right) :
    (∃ result capture left' right',
      (onCapture action).perform (outlet, left) =
        (result, { outlet with capture := capture }, left') ∧
      (onCapture action).perform (outlet, right) =
        (result, { outlet with capture := capture }, right') ∧
      (∀ next ∈ capture, next.Fits Alike Lost) ∧
      Alike left' right') ∨
    ∃ e outlet' left',
      (onCapture action).perform (outlet, left) =
        (.error e, outlet', left') ∧
      Lost left' := by
  rcases outlet with ⟨channel, written, _ | capture, frames⟩
  · left
    exact ⟨.ok (), none, left, right, rfl, rfl, hFits, hAlike⟩
  · rcases hAction (capture, left) (capture, right)
      ⟨rfl, hFits capture rfl, hAlike⟩ with
      ⟨result, ⟨capture', left'⟩, ⟨_, right'⟩, hLeft, hRight,
        rfl, hFits', hBoth⟩ |
        ⟨e, ⟨capture', left'⟩, hLeft, hLost⟩
    · left
      refine
        ⟨result, some capture', left', right', ?_, ?_, ?_, hBoth⟩
      · simp only [onCapture, Step.perform_ofStep, hLeft]
      · simp only [onCapture, Step.perform_ofStep, hRight]
      · intro next hNext
        cases hNext
        exact hFits'
    · right
      refine
        ⟨e, ⟨channel, written, some capture', frames⟩, left', ?_,
          hLost⟩
      simp only [onCapture, Step.perform_ofStep, hLeft]

/- An action on captures keeps outlets in step. -/
theorem lockstep_onCapture
    {action : Action (Capture ω × ω) Unit}
    (hAction :
      KeepsStep (Capture.Fits Alike Lost) Alike Lost action) :
    KeepsStep (Fits Alike Lost) Alike Lost
      (onCapture action) := by
  rintro ⟨outlet, left⟩ ⟨_, right⟩ ⟨rfl, hFits, hAlike⟩
  have hOutlet : outlet.Fits Alike Lost := hFits
  rcases paced_onCapture hAction hOutlet.capture hAlike with
    ⟨result, capture, left', right', hLeft, hRight, hCapture,
      hBoth⟩ | ⟨e, outlet', left', hLeft, hLost⟩
  · left
    exact
      ⟨result, _, _, hLeft, hRight, rfl,
        ⟨hOutlet.channel, hCapture⟩, hBoth⟩
  · right
    exact ⟨e, (outlet', left'), hLeft, hLost⟩

theorem lockstep_emit
    (layout : Bytes → Bytes → List Bytes)
    (block packed : Bytes) :
    KeepsStep (Fits Alike Lost) Alike Lost
      (emit layout block packed :
        Action (Outlet ω × ω) Unit) := by
  apply Step.lockstep_get_bind
  · rintro ⟨outlet, left⟩ ⟨_, right⟩ ⟨rfl, _⟩
    rfl
  · rintro ⟨outlet, left⟩ _ _
    apply (lockstep_onCapture
      (Capture.lockstep_record outlet.written)).bind
    intro _
    apply (lockstep_putAll (layout block packed)).bind
    intro _
    apply Step.lockstep_modify
    rintro ⟨outlet, left⟩ ⟨_, right⟩ ⟨rfl, hFits, hAlike⟩
    exact ⟨rfl, ⟨hFits.channel, hFits.capture⟩, hAlike⟩

theorem lockstep_flushChannel :
    KeepsStep (Fits Alike Lost) Alike Lost
      (flushChannel : Action (Outlet ω × ω) Unit) := by
  rintro ⟨outlet, left⟩ ⟨_, right⟩ ⟨rfl, hFits, hAlike⟩
  have hOutlet : outlet.Fits Alike Lost := hFits
  rcases hOutlet.channel.flush left right hAlike with
    ⟨result, left', right', hLeft, hRight, hBoth⟩ |
      ⟨kind, left', hLeft, hLost⟩
  · rw [Step.perform_ofStep] at hLeft hRight
    left
    refine
      ⟨result.mapError .io, (outlet, left'), (outlet, right'),
        ?_, ?_, rfl, hFits, hBoth⟩
    · simp only [flushChannel, Step.perform_ofStep, hLeft]
    · simp only [flushChannel, Step.perform_ofStep, hRight]
  · rw [Step.perform_ofStep] at hLeft
    right
    refine ⟨.io kind, (outlet, left'), ?_, hLost⟩
    simp only [flushChannel, Step.perform_ofStep, hLeft]
    rfl

theorem lockstep_flush :
    KeepsStep (Fits Alike Lost) Alike Lost
      (flush : Action (Outlet ω × ω) Unit) :=
  (lockstep_onCapture Capture.lockstep_flush).bind fun _ =>
    lockstep_flushChannel

/- An outlet fits if the channels of its receivers do. -/
theorem Carries.fits
    {receivers : Receivers ω}
    {outlet : Outlet ω}
    {world : ω}
    {captured : Bool}
    {bytes : Bytes}
    {offsets : List Nat}
    (h : outlet.Carries receivers world captured bytes offsets)
    (hData : receivers.data.InStep Alike Lost)
    (hIndex :
      captured = true → receivers.index.InStep Alike Lost) :
    outlet.Fits Alike Lost := by
  rcases h.holds with ⟨indexed, _, _, hRecords⟩
  constructor
  · rw [h.channel]
    exact hData
  · intro capture hCapture
    have hCaptured : captured = true := by
      rw [← h.captured, hCapture]
      rfl
    have hChannel := hIndex hCaptured
    rw [← (hRecords capture hCapture).channel] at hChannel
    exact hChannel

end Outlet

------------------------------------------------------------
-- Regroupers
------------------------------------------------------------

namespace Regrouper

variable {emit : Emission ω}

/- A regrouper that fits any world keeps it in step. -/
theorem keepsStep_of_simulates
    {α : Type}
    {action : Action (Regrouper × ω) α}
    (hAction :
      Step.Simulates (fun _ => True)
        (Beside Alike) (LostBeside fun _ => Lost)
        action action) :
    KeepsStep (fun _ => True) Alike Lost action := by
  apply Step.lockstep_iff_simulates.mpr
  rintro left right ⟨hSame, _, hAlike⟩
  rcases hAction left right ⟨hSame, hAlike⟩ with
    ⟨result, s, t, hLeft, hRight, ⟨hBoth, hWorlds⟩, hCommon⟩ |
      hLost
  · left
    exact
      ⟨result, s, t, hLeft, hRight, ⟨hBoth, trivial, hWorlds⟩,
        hCommon⟩
  · right
    exact hLost

theorem lockstep_write
    (hEmit :
      ∀ block packed, (emit block packed).Lockstep Alike Lost)
    (data : Bytes) :
    KeepsStep (fun _ => True) Alike Lost (write emit data) := by
  apply keepsStep_of_simulates
  apply simulates_write fun _ _ => trivial
  intro block packed
  exact Step.lockstep_iff_simulates.mp (hEmit block packed)

theorem lockstep_flush
    (hEmit :
      ∀ block packed, (emit block packed).Lockstep Alike Lost) :
    KeepsStep (fun _ => True) Alike Lost (flush emit) := by
  apply keepsStep_of_simulates
  apply simulates_flush fun _ _ => trivial
  intro block packed
  exact Step.lockstep_iff_simulates.mp (hEmit block packed)

end Regrouper

end SplitStream
