import SplitStream.Proofs.Writer.InStep
import SplitStream.Proofs.Writer.Sessions

/-
  Runs that are overtaken. Two runs of a step go along side by
  side until the first one fails; it stays where it is, and
  whatever the second one goes on to do, the first one is
  behind it. Regroupers and writers only do what their outlets
  do, so their runs lag if those of the outlets lag.

  Main declarations:
    * `Step.Lags`
    * `Step.Lags.bind`
    * `Step.Lags.within`
    * `Regrouper.lags_write`
    * `Regrouper.lags_flush`
    * `FrameWriter.Lagging`
    * `FrameWriter.Lagging.call`
    * `ContainerWriter.lagging`
    * `RawWriter.lagging`
-/

------------------------------------------------------------
-- Steps
------------------------------------------------------------

namespace SplitStream

namespace Step

variable {ε σ τ α β : Type}

/-
  Two runs have come to the same result and to states that
  are alike, or the first one has failed and is behind.
-/
abbrev Overtaken
    (Fails : ε → Prop)
    (Alike Behind : σ → σ → Prop)
    (left right : Except ε α × σ) : Prop :=
  (∃ result s t,
    left = (result, s) ∧ right = (result, t) ∧ Alike s t) ∨
  ∃ e s, left = (.error e, s) ∧ Fails e ∧ Behind s right.2

/-
  Two runs of a step from states that are alike; and what is
  behind a state is still behind when the step has been taken
  from there.
-/
structure Lags
    (Fails : ε → Prop)
    (Alike Behind : σ → σ → Prop)
    (step : Step ε σ α) : Prop where
  along :
    ∀ s t,
      Alike s t →
        Overtaken Fails Alike Behind
          (step.perform s) (step.perform t)
  behind : ∀ s t, Behind s t → Behind s (step.final t)

variable {Fails : ε → Prop} {Alike Behind : σ → σ → Prop}

theorem overtaken_of_same
    {result : Except ε α}
    {s t : σ}
    (hAlike : Alike s t) :
    Overtaken Fails Alike Behind (result, s) (result, t) :=
  .inl ⟨result, s, t, rfl, rfl, hAlike⟩

theorem lags_pure
    (a : α) :
    (pure a : Step ε σ α).Lags Fails Alike Behind where
  along := fun _ _ hAlike => overtaken_of_same hAlike
  behind := fun _ _ hBehind => hBehind

theorem lags_throw
    (e : ε) :
    (throw e : Step ε σ α).Lags Fails Alike Behind where
  along := fun _ _ hAlike => overtaken_of_same hAlike
  behind := fun _ _ hBehind => hBehind

theorem lags_ofExcept
    (result : Except ε α) :
    (ofExcept result : Step ε σ α).Lags Fails Alike Behind := by
  cases result with
  | error e => exact lags_throw e
  | ok a => exact lags_pure a

theorem lags_modify
    {f : σ → σ}
    (hAlike : ∀ s t, Alike s t → Alike (f s) (f t))
    (hBehind : ∀ s t, Behind s t → Behind s (f t)) :
    (modify f : Step ε σ PUnit).Lags Fails Alike Behind where
  along := fun s t h => overtaken_of_same (hAlike s t h)
  behind := hBehind

/- A step that keeps something lags behind nothing. -/
theorem lags_of_kept
    {step : Step ε σ α}
    {Kept : σ → Prop}
    (hKept : ∀ s, Kept s → Kept (step.final s)) :
    step.Lags Fails (fun _ _ => False) fun _ => Kept where
  along := fun _ _ hNever => hNever.elim
  behind := fun _ => hKept

theorem final_bind
    (step : Step ε σ α)
    (next : α → Step ε σ β)
    (s : σ) :
    (step >>= next).final s =
      match step.perform s with
      | (.ok a, t) => (next a).final t
      | (.error _, t) => t := by
  unfold final
  rw [perform_bind]
  rcases step.perform s with ⟨_ | _, _⟩
  · rfl
  · rfl

theorem Lags.bind
    {step : Step ε σ α}
    {next : α → Step ε σ β}
    (hStep : step.Lags Fails Alike Behind)
    (hNext : ∀ a, (next a).Lags Fails Alike Behind) :
    (step >>= next).Lags Fails Alike Behind := by
  -- What is behind the first step is behind those after it.
  have hLater :
      ∀ s t,
        Behind s (step.final t) →
          Behind s ((step >>= next).final t) := by
    intro s t hBehind
    rw [final_bind]
    unfold final at hBehind
    rcases hStep : step.perform t with ⟨_ | a, t'⟩
    · rw [hStep] at hBehind
      exact hBehind
    · rw [hStep] at hBehind
      exact (hNext a).behind s t' hBehind
  constructor
  · intro s t hAlike
    rcases hStep.along s t hAlike with
      ⟨result, s', t', hLeft, hRight, hBoth⟩ |
        ⟨e, s', hLeft, hFails, hBehind⟩
    · cases result with
      | error e =>
        rw [perform_bind_of_error hLeft,
          perform_bind_of_error hRight]
        exact overtaken_of_same hBoth
      | ok a =>
        rw [perform_bind_of_ok hLeft, perform_bind_of_ok hRight]
        exact (hNext a).along s' t' hBoth
    · right
      exact
        ⟨e, s', perform_bind_of_error hLeft, hFails,
          hLater s' t hBehind⟩
  · intro s t hBehind
    exact hLater s t (hStep.behind s t hBehind)

/- What is done with a state must not tell alike states apart. -/
theorem lags_get_bind
    {next : σ → Step ε σ β}
    (hSame : ∀ s t, Alike s t → next s = next t)
    (hNext : ∀ s, (next s).Lags Fails Alike Behind) :
    (get >>= next).Lags Fails Alike Behind where
  along := by
    intro s t hAlike
    rw [perform_bind_of_ok (perform_get s),
      perform_bind_of_ok (perform_get t), hSame s t hAlike]
    exact (hNext t).along s t hAlike
  behind := fun s t hBehind => (hNext t).behind s t hBehind

theorem Lags.ite
    {condition : Prop}
    [Decidable condition]
    {left right : Step ε σ α}
    (hLeft : left.Lags Fails Alike Behind)
    (hRight : right.Lags Fails Alike Behind) :
    (if condition then left else right).Lags Fails Alike
      Behind := by
  by_cases hCondition : condition
  · rw [if_pos hCondition]
    exact hLeft
  · rw [if_neg hCondition]
    exact hRight

/- A step on parts that lags makes the wholes lag. -/
theorem Lags.within
    {AlikePart BehindPart : τ → τ → Prop}
    {step : Step ε τ α}
    {get : σ → τ}
    {set : τ → σ → σ}
    (hStep : step.Lags Fails AlikePart BehindPart)
    (hAlike : ∀ s t, Alike s t → AlikePart (get s) (get t))
    (hAlong :
      ∀ s t a b,
        Alike s t →
          AlikePart a b → Alike (set a s) (set b t))
    (hLost :
      ∀ s t a b,
        Alike s t →
          BehindPart a b → Behind (set a s) (set b t))
    (hBehind : ∀ s t, Behind s t → BehindPart (get s) (get t))
    (hLater :
      ∀ s t b,
        Behind s t →
          BehindPart (get s) b → Behind s (set b t)) :
    (within get set step).Lags Fails Alike Behind where
  along := by
    intro s t h
    rw [perform_within, perform_within]
    rcases hStep.along _ _ (hAlike s t h) with
      ⟨result, a, b, hLeft, hRight, hBoth⟩ |
        ⟨e, a, hLeft, hFails, hPart⟩
    · rw [hLeft, hRight]
      exact overtaken_of_same (hAlong s t a b h hBoth)
    · rw [hLeft]
      right
      exact ⟨e, set a s, rfl, hFails, hLost s t a _ h hPart⟩
  behind := by
    intro s t h
    exact hLater s t _ h (hStep.behind _ _ (hBehind s t h))

end Step

------------------------------------------------------------
-- Regroupers
------------------------------------------------------------

variable {ω σ : Type}

/-
  A part behind which another one may be, beside a world: only
  the part that goes on must fit.
-/
def Astern
    (Fits : σ → Prop)
    (Behind : ω → ω → Prop)
    (left right : σ × ω) : Prop :=
  Fits right.1 ∧ Behind left.2 right.2

namespace Regrouper

variable
  {Fails : Error → Prop} {Alike Behind : σ → σ → Prop}
  {emit : Emission σ} {origin : Regrouper}

/- What is behind stays behind the rounds of a write. -/
theorem behind_writeFrom
    (hEmit :
      ∀ block packed,
        (emit block packed).Lags Fails Alike Behind)
    (data : Bytes)
    (regrouper : Regrouper)
    (hKin : origin.Kin regrouper)
    (s t : σ)
    (hBehind : Behind s t) :
    origin.Kin (writeFrom emit data regrouper t).2.1 ∧
      Behind s (writeFrom emit data regrouper t).2.2 := by
  induction data, regrouper using rounds generalizing t with
  | hLacking data regrouper hLacking =>
    rw [writeFrom_of_lacking emit hLacking]
    exact ⟨⟨hKin.codec, hKin.blockSize⟩, hBehind⟩
  | hCompletes data regrouper hCompletes ih =>
    rcases writeFrom_of_completes hCompletes with
      ⟨outcome, _, hRound⟩
    have hTried := hKin.trans (regrouper.kin_tried data)
    have hBlock :=
      ((Step.lags_ofExcept outcome).bind
        (hEmit (regrouper.completed data))).behind s t hBehind
    unfold Step.final at hBlock
    rw [hRound]
    rcases hPerform :
        (ofExcept outcome >>= emit _ : Action σ Unit).perform t with
      ⟨e | _, t'⟩
    · rw [hPerform] at hBlock
      exact ⟨hTried, hBlock⟩
    · rw [hPerform] at hBlock
      have hRest := (regrouper.kin_tried data).trans (kin_emptied _)
      exact ih _ hRest rfl (hKin.trans hRest) t' hBlock

/- A write lags if what it emits does. -/
theorem overtaken_writeFrom
    (hEmit :
      ∀ block packed,
        (emit block packed).Lags Fails Alike Behind)
    (data : Bytes)
    (regrouper : Regrouper)
    (hKin : origin.Kin regrouper)
    (s t : σ)
    (hAlike : Alike s t) :
    Step.Overtaken Fails (Abreast origin.Kin Alike)
      (Astern origin.Kin Behind)
      (writeFrom emit data regrouper s)
      (writeFrom emit data regrouper t) := by
  induction data, regrouper using rounds generalizing s t with
  | hLacking data regrouper hLacking =>
    rw [writeFrom_of_lacking emit hLacking,
      writeFrom_of_lacking emit hLacking]
    exact
      Step.overtaken_of_same
        ⟨rfl, ⟨hKin.codec, hKin.blockSize⟩, hAlike⟩
  | hCompletes data regrouper hCompletes ih =>
    rcases writeFrom_of_completes hCompletes with
      ⟨outcome, _, hRound⟩
    have hTried := hKin.trans (regrouper.kin_tried data)
    have hRest := (regrouper.kin_tried data).trans (kin_emptied _)
    have hBlock :=
      ((Step.lags_ofExcept outcome).bind
        (hEmit (regrouper.completed data))).along s t hAlike
    rw [hRound, hRound]
    rcases hBlock with
      ⟨result, s', t', hLeft, hRight, hBoth⟩ |
        ⟨e, s', hLeft, hFails, hBehind⟩
    · rw [hLeft, hRight]
      cases result with
      | error e =>
        exact Step.overtaken_of_same ⟨rfl, hTried, hBoth⟩
      | ok _ => exact ih _ hRest rfl (hKin.trans hRest) s' t' hBoth
    · rw [hLeft]
      right
      refine ⟨e, (regrouper.tried data, s'), rfl, hFails, ?_⟩
      rcases hPerform :
          (ofExcept outcome >>= emit _ : Action σ Unit).perform t
        with ⟨e' | _, t'⟩
      · rw [hPerform] at hBehind
        exact ⟨hTried, hBehind⟩
      · rw [hPerform] at hBehind
        exact
          behind_writeFrom hEmit _ _ (hKin.trans hRest) s' t'
            hBehind

theorem lags_write
    (hEmit :
      ∀ block packed,
        (emit block packed).Lags Fails Alike Behind)
    (data : Bytes) :
    (write emit data).Lags Fails (Abreast origin.Kin Alike)
      (Astern origin.Kin Behind) where
  along := by
    rintro ⟨regrouper, s⟩ ⟨_, t⟩ ⟨rfl, hKin, hAlike⟩
    exact overtaken_writeFrom hEmit data regrouper hKin s t hAlike
  behind := by
    rintro ⟨_, s⟩ ⟨regrouper, t⟩ ⟨hKin, hBehind⟩
    exact behind_writeFrom hEmit data regrouper hKin s t hBehind

/-
  What a flush comes to is what its block comes to, beside a
  regrouper of the same kin.
-/
theorem flush_beside
    {regrouper : Regrouper}
    (hHeld : regrouper.held.size ≠ 0) :
    ∃ (outcome : Except Error Bytes)
      (rest : Except Error Unit → Regrouper),
      (∀ result, regrouper.Kin (rest result)) ∧
      ∀ {σ : Type} (emit : Emission σ) (s : σ),
        let block : Action σ Unit :=
          ofExcept outcome >>= emit regrouper.held.toBytes
        (flush emit).perform (regrouper, s) =
          ((block.perform s).1, rest (block.perform s).1,
            (block.perform s).2) := by
  let spent := regrouper.spent regrouper.held.toBytes
  have hSpent : regrouper.Kin spent := kin_spent regrouper _
  let rest (result : Except Error Unit) : Regrouper :=
    bif result.isOk then spent.emptied else spent
  rcases flush_of_some hHeld with ⟨outcome, _, hFlush⟩
  refine ⟨outcome, rest, ?_, ?_⟩
  · intro result
    cases result with
    | error _ => exact hSpent
    | ok _ => exact hSpent.trans (kin_emptied spent)
  · intro σ emit s block
    rw [hFlush]
    rcases block.perform s with ⟨_ | _, _⟩
    · rfl
    · rfl

theorem lags_flush
    (hEmit :
      ∀ block packed,
        (emit block packed).Lags Fails Alike Behind) :
    (flush emit).Lags Fails (Abreast origin.Kin Alike)
      (Astern origin.Kin Behind) where
  along := by
    intro left right hAbreast
    rcases left with ⟨regrouper, s⟩
    rcases right with ⟨other, t⟩
    rcases hAbreast with ⟨hSame, hKin, hAlike⟩
    dsimp only at hSame hKin hAlike
    subst hSame
    by_cases hHeld : regrouper.held.size = 0
    · rw [flush_of_none emit hHeld, flush_of_none emit hHeld]
      exact Step.overtaken_of_same ⟨rfl, hKin, hAlike⟩
    rcases flush_beside hHeld with ⟨outcome, rest, hRest, hFlush⟩
    rw [hFlush, hFlush]
    rcases ((Step.lags_ofExcept outcome).bind
      (hEmit regrouper.held.toBytes)).along s t hAlike with
      ⟨result, s', t', hLeft, hRight, hBoth⟩ |
        ⟨e, s', hLeft, hFails, hBehind⟩
    · rw [hLeft, hRight]
      exact
        Step.overtaken_of_same
          ⟨rfl, hKin.trans (hRest result), hBoth⟩
    · rw [hLeft]
      right
      exact
        ⟨e, _, rfl, hFails, hKin.trans (hRest _), hBehind⟩
  behind := by
    intro left right hAstern
    rcases right with ⟨regrouper, t⟩
    rcases hAstern with ⟨hKin, hBehind⟩
    unfold Step.final
    by_cases hHeld : regrouper.held.size = 0
    · rw [flush_of_none emit hHeld]
      exact ⟨hKin, hBehind⟩
    rcases flush_beside hHeld with ⟨outcome, rest, hRest, hFlush⟩
    rw [hFlush]
    have hBlock :=
      ((Step.lags_ofExcept outcome).bind
        (hEmit regrouper.held.toBytes)).behind left.2 t hBehind
    exact ⟨hKin.trans (hRest _), hBlock⟩

end Regrouper

------------------------------------------------------------
-- Writers
------------------------------------------------------------

namespace FrameWriter

variable {W : Type → Type} [FrameWriter W] {α : Type}

/- The same writer, of some kin, beside worlds that are alike. -/
def Alongside
    (origin : Regrouper)
    (Alike : Outlet ω × ω → Outlet ω × ω → Prop)
    (left right : W ω × ω) : Prop :=
  left.1 = right.1 ∧
    origin.Kin (regrouper left.1) ∧
    Alike (outlet left.1, left.2) (outlet right.1, right.2)

/- A writer of some kin that another one is behind. -/
def Ahead
    (origin : Regrouper)
    (Behind : Outlet ω × ω → Outlet ω × ω → Prop)
    (left right : W ω × ω) : Prop :=
  origin.Kin (regrouper right.1) ∧
    Behind (outlet left.1, left.2) (outlet right.1, right.2)

/- An action of a writer that lags as actions on outlets do. -/
abbrev LagsLike
    (Fails : Error → Prop)
    (Alike Behind : Outlet ω × ω → Outlet ω × ω → Prop)
    (origin : Regrouper)
    (action : Action (W ω × ω) α) : Prop :=
  action.Lags Fails (Alongside origin Alike)
    (Ahead origin Behind)

/- Every call of a writer lags. -/
structure Lagging
    (W : Type → Type)
    [FrameWriter W]
    (Fails : Error → Prop)
    (Alike Behind : Outlet ω × ω → Outlet ω × ω → Prop)
    (origin : Regrouper) : Prop where
  write :
    ∀ data,
      LagsLike (W := W) Fails Alike Behind origin (write data)
  flush : LagsLike (W := W) Fails Alike Behind origin flush
  finish : LagsLike (W := W) Fails Alike Behind origin finish
  reset : LagsLike (W := W) Fails Alike Behind origin reset
  close : LagsLike (W := W) Fails Alike Behind origin close

variable
  {Fails : Error → Prop}
  {Alike Behind : Outlet ω × ω → Outlet ω × ω → Prop}
  {origin : Regrouper}

theorem Lagging.call
    (h : Lagging W Fails Alike Behind origin)
    (call : Call) :
    LagsLike (W := W) Fails Alike Behind origin call.action := by
  cases call with
  | write data => exact h.write data
  | writeRange buffer offset length =>
    exact (Step.lags_ofExcept _).bind fun _ => h.write _
  | flush => exact h.flush
  | finish => exact h.finish.bind fun _ => Step.lags_pure ()
  | reset => exact h.reset

/- So does every call that a session may end with. -/
theorem Lagging.ending
    (h : Lagging W Fails Alike Behind origin)
    (ending : Ending) :
    LagsLike (W := W) Fails Alike Behind origin
      ending.action := by
  cases ending with
  | finish => exact h.call .finish
  | close => exact h.close

/- What is behind a writer is behind it after further calls. -/
theorem Lagging.ahead_run
    (h : Lagging W Fails Alike Behind origin)
    {state : W ω × ω}
    (course : Course W ω)
    (calls : List Call)
    (hAhead :
      Ahead origin Behind state (course.writer, course.world)) :
    Ahead origin Behind state
      ((course.run calls).writer, (course.run calls).world) := by
  let Holds (later : Course W ω) : Prop :=
    Ahead origin Behind state (later.writer, later.world)
  have hStep :
      ∀ later,
        Holds later → ∀ call, Holds (later.step call) :=
    fun later hLater call => (h.call call).behind state _ hLater
  exact Course.run_of_step hStep course calls hAhead

/- An action on the outlet of a writer lags if it does there. -/
theorem lags_within_outlet
    (set : Outlet ω → W ω → W ω)
    (hOutlet : ∀ next writer, outlet (set next writer) = next)
    (hRegrouper :
      ∀ next writer,
        regrouper (set next writer) = regrouper writer)
    (hSame : ∀ s t, Alike s t → s.1 = t.1)
    {action : Action (Outlet ω × ω) α}
    (hAction : action.Lags Fails Alike Behind) :
    LagsLike Fails Alike Behind origin
      (Step.within
        (fun state => (outlet state.1, state.2))
        (fun next state => (set next.1 state.1, next.2))
        action) := by
  apply hAction.within
  · intro s t hAlong
    exact hAlong.2.2
  · intro s t a b hAlong hAlike
    refine ⟨?_, ?_, ?_⟩
    · rw [hAlong.1, hSame a b hAlike]
    · rw [hRegrouper]
      exact hAlong.2.1
    · rw [hOutlet, hOutlet]
      exact hAlike
  · intro s t a b hAlong hBehind
    have hKin := hAlong.2.1
    rw [hAlong.1] at hKin
    refine ⟨?_, ?_⟩
    · rw [hRegrouper]
      exact hKin
    · rw [hOutlet, hOutlet]
      exact hBehind
  · intro s t hAhead
    exact hAhead.2
  · intro s t b hAhead hBehind
    refine ⟨?_, ?_⟩
    · rw [hRegrouper]
      exact hAhead.1
    · rw [hOutlet]
      exact hBehind

/- So does one on its regrouper and its outlet. -/
theorem lags_within_parts
    (set : Regrouper → Outlet ω → W ω → W ω)
    (hOutlet :
      ∀ part next writer, outlet (set part next writer) = next)
    (hRegrouper :
      ∀ part next writer,
        regrouper (set part next writer) = part)
    (hSame : ∀ s t, Alike s t → s.1 = t.1)
    {action : Action (Regrouper × Outlet ω × ω) α}
    (hAction :
      action.Lags Fails (Abreast origin.Kin Alike)
        (Astern origin.Kin Behind)) :
    LagsLike Fails Alike Behind origin
      (Step.within
        (fun state =>
          (regrouper state.1, outlet state.1, state.2))
        (fun next state =>
          (set next.1 next.2.1 state.1, next.2.2))
        action) := by
  apply hAction.within
  · intro s t hAlong
    exact ⟨congrArg regrouper hAlong.1, hAlong.2⟩
  · intro s t a b hAlong hAbreast
    rcases hAbreast with ⟨hPart, hKin, hAlike⟩
    refine ⟨?_, ?_, ?_⟩
    · rw [hAlong.1, hPart, hSame a.2 b.2 hAlike]
    · rw [hRegrouper]
      exact hKin
    · rw [hOutlet, hOutlet]
      exact hAlike
  · intro s t a b hAlong hAstern
    refine ⟨?_, ?_⟩
    · rw [hRegrouper]
      exact hAstern.1
    · rw [hOutlet, hOutlet]
      exact hAstern.2
  · intro s t hAhead
    exact hAhead
  · intro s t b hAhead hAstern
    refine ⟨?_, ?_⟩
    · rw [hRegrouper]
      exact hAstern.1
    · rw [hOutlet]
      exact hAstern.2

end FrameWriter

------------------------------------------------------------
-- Outlets
------------------------------------------------------------

/- The flushes of an outlet lag, and alike outlets are one. -/
structure Outlet.FlushesLag
    (Fails : Error → Prop)
    (Alike Behind : Outlet ω × ω → Outlet ω × ω → Prop) :
    Prop where
  same : ∀ s t, Alike s t → s.1 = t.1
  capture :
    (Outlet.onCapture Capture.flush).Lags Fails Alike Behind
  channel : Outlet.flushChannel.Lags Fails Alike Behind

theorem Outlet.FlushesLag.flush
    {Fails : Error → Prop}
    {Alike Behind : Outlet ω × ω → Outlet ω × ω → Prop}
    (h : FlushesLag Fails Alike Behind) :
    Outlet.flush.Lags Fails Alike Behind :=
  h.capture.bind fun _ => h.channel

/- What is done to an outlet lags, one piece at a time. -/
structure Outlet.PutsLag
    (Fails : Error → Prop)
    (Alike Behind : Outlet ω × ω → Outlet ω × ω → Prop) : Prop
    extends Outlet.FlushesLag Fails Alike Behind where
  put : ∀ piece, (Outlet.put piece).Lags Fails Alike Behind
  record :
    ∀ offset,
      (Outlet.onCapture (Capture.record offset)).Lags Fails Alike
        Behind
  count :
    Step.Lags Fails Alike Behind
      (modify fun (outlet, world) =>
          ({ outlet with frames := outlet.frames + 1 }, world) :
        Action (Outlet ω × ω) PUnit)

namespace Outlet.PutsLag

variable
  {Fails : Error → Prop}
  {Alike Behind : Outlet ω × ω → Outlet ω × ω → Prop}

theorem putAll
    (h : PutsLag Fails Alike Behind)
    (pieces : List Bytes) :
    (Outlet.putAll pieces).Lags Fails Alike Behind := by
  induction pieces with
  | nil => exact Step.lags_pure ()
  | cons piece pieces ih => exact (h.put piece).bind fun _ => ih

theorem putHeader
    (h : PutsLag Fails Alike Behind)
    (fields : Header) :
    (Outlet.putHeader fields).Lags Fails Alike Behind := by
  have hPut :
      (Outlet.putAll fields.pieces >>= fun _ =>
          pure fields.writtenLength).Lags Fails Alike Behind :=
    (h.putAll fields.pieces).bind fun _ => Step.lags_pure _
  apply Step.Lags.ite _ hPut
  exact (Step.lags_throw _).bind fun _ => hPut

theorem emit
    (h : PutsLag Fails Alike Behind)
    (layout : Bytes → Bytes → List Bytes)
    (block packed : Bytes) :
    (Outlet.emit layout block packed).Lags Fails Alike
      Behind := by
  apply Step.lags_get_bind
  · rintro ⟨outlet, left⟩ ⟨other, right⟩ hAlike
    have hSame : outlet = other := h.same _ _ hAlike
    rw [hSame]
  intro state
  apply (h.record state.1.written).bind
  intro _
  exact (h.putAll (layout block packed)).bind fun _ => h.count

end Outlet.PutsLag

------------------------------------------------------------
-- Container Writers
------------------------------------------------------------

variable
  {α : Type} {Fails : Error → Prop}
  {Alike Behind : Outlet ω × ω → Outlet ω × ω → Prop}
  {origin : Regrouper}

namespace ContainerWriter

/- All that a container writer does to its outlet lags. -/
structure PartsLag
    (Fails : Error → Prop)
    (Alike Behind : Outlet ω × ω → Outlet ω × ω → Prop) : Prop
    extends Outlet.FlushesLag Fails Alike Behind where
  frame :
    ∀ checksums block packed,
      (Outlet.emit (Frame.containerPieces checksums) block
        packed).Lags Fails Alike Behind
  header :
    ∀ fields, (Outlet.putHeader fields).Lags Fails Alike Behind
  terminator :
    (Outlet.put Frame.terminator).Lags Fails Alike Behind

theorem partsLag_of_puts
    (h : Outlet.PutsLag Fails Alike Behind) :
    PartsLag Fails Alike Behind where
  toFlushesLag := h.toFlushesLag
  frame := fun checksums => h.emit (Frame.containerPieces checksums)
  header := h.putHeader
  terminator := h.put Frame.terminator

theorem lags_onOutlet
    (hSame : ∀ s t, Alike s t → s.1 = t.1)
    {action : Action (Outlet ω × ω) α}
    (hAction : action.Lags Fails Alike Behind) :
    FrameWriter.LagsLike Fails Alike Behind origin
      (onOutlet action : Action (ContainerWriter ω × ω) α) :=
  FrameWriter.lags_within_outlet
    (fun outlet (writer : ContainerWriter ω) =>
      { writer with outlet := outlet })
    (fun _ _ => rfl) (fun _ _ => rfl) hSame hAction

theorem lags_onRegrouper
    (hSame : ∀ s t, Alike s t → s.1 = t.1)
    {action : Action (Regrouper × Outlet ω × ω) α}
    (hAction :
      action.Lags Fails (Abreast origin.Kin Alike)
        (Astern origin.Kin Behind)) :
    FrameWriter.LagsLike Fails Alike Behind origin
      (onRegrouper action : Action (ContainerWriter ω × ω) α) :=
  FrameWriter.lags_within_parts
    (fun regrouper outlet (writer : ContainerWriter ω) =>
      { writer with
        outlet := outlet
        regrouper := regrouper })
    (fun _ _ _ => rfl) (fun _ _ _ => rfl) hSame hAction

theorem lags_current_bind
    {next : ContainerWriter ω → Action (ContainerWriter ω × ω) α}
    (hNext :
      ∀ writer,
        FrameWriter.LagsLike Fails Alike Behind origin
          (next writer)) :
    FrameWriter.LagsLike Fails Alike Behind origin
      (current >>= next) := by
  have hSame :
      ∀ s t : ContainerWriter ω × ω,
        FrameWriter.Alongside origin Alike s t →
          next s.1 = next t.1 := by
    intro s t hAlong
    rw [hAlong.1]
  exact Step.lags_get_bind hSame fun s => hNext s.1

theorem lags_enter
    (stage : MemberStage) :
    FrameWriter.LagsLike Fails Alike Behind origin
      (enter stage : Action (ContainerWriter ω × ω) Unit) := by
  apply Step.lags_modify
  · rintro ⟨writer, left⟩ ⟨_, right⟩ ⟨rfl, hKin, hAlike⟩
    exact ⟨rfl, hKin, hAlike⟩
  · rintro ⟨_, left⟩ ⟨writer, right⟩ ⟨hKin, hBehind⟩
    exact ⟨hKin, hBehind⟩

theorem lags_openMember
    (h : PartsLag Fails Alike Behind) :
    FrameWriter.LagsLike Fails Alike Behind origin
      (openMember : Action (ContainerWriter ω × ω) Unit) := by
  apply lags_current_bind
  intro writer
  apply Step.Lags.ite _ (Step.lags_pure ())
  apply (lags_onOutlet h.same (h.header writer.header)).bind
  intro _
  exact lags_enter .opened

theorem lags_write
    (h : PartsLag Fails Alike Behind)
    (data : Bytes) :
    FrameWriter.LagsLike Fails Alike Behind origin
      (write data : Action (ContainerWriter ω × ω) Unit) := by
  apply lags_current_bind
  intro writer
  have hRegroup :
      FrameWriter.LagsLike Fails Alike Behind origin
        (onRegrouper (Regrouper.write writer.emission data)) :=
    lags_onRegrouper h.same
      (Regrouper.lags_write (h.frame writer.checksums) data)
  have hTake :
      FrameWriter.LagsLike Fails Alike Behind origin
        (if !data.isEmpty then
          openMember >>= fun _ =>
            onRegrouper (Regrouper.write writer.emission data)
        else
          pure ()) :=
    .ite ((lags_openMember h).bind fun _ => hRegroup)
      (Step.lags_pure ())
  apply Step.Lags.ite _ hTake
  exact (Step.lags_throw _).bind fun _ => hTake

theorem lags_flushFrames
    (h : PartsLag Fails Alike Behind) :
    FrameWriter.LagsLike Fails Alike Behind origin
      (flushFrames : Action (ContainerWriter ω × ω) Unit) := by
  apply lags_current_bind
  intro writer
  apply Step.Lags.ite _ (Step.lags_pure ())
  apply (lags_openMember h).bind
  intro _
  exact
    lags_onRegrouper h.same
      (Regrouper.lags_flush (h.frame writer.checksums))

theorem lags_finish
    (h : PartsLag Fails Alike Behind) :
    FrameWriter.LagsLike Fails Alike Behind origin
      (finish : Action (ContainerWriter ω × ω) Nat) := by
  apply lags_current_bind
  intro writer
  apply Step.Lags.ite (Step.lags_pure _)
  apply (lags_openMember h).bind
  intro _
  apply (lags_flushFrames h).bind
  intro _
  apply (lags_onOutlet h.same h.terminator).bind
  intro _
  apply (lags_onOutlet h.same h.flush).bind
  intro _
  apply (lags_enter .finished).bind
  intro _
  apply lags_current_bind
  intro writer
  exact Step.lags_pure _

theorem lags_reset :
    FrameWriter.LagsLike Fails Alike Behind origin
      (reset : Action (ContainerWriter ω × ω) Unit) := by
  apply Step.lags_modify
  · rintro ⟨writer, left⟩ ⟨_, right⟩ ⟨rfl, hKin, hAlike⟩
    exact ⟨rfl, ⟨hKin.codec, hKin.blockSize⟩, hAlike⟩
  · rintro ⟨_, left⟩ ⟨writer, right⟩ ⟨hKin, hBehind⟩
    exact ⟨⟨hKin.codec, hKin.blockSize⟩, hBehind⟩

theorem lags_close
    (h : PartsLag Fails Alike Behind) :
    FrameWriter.LagsLike Fails Alike Behind origin
      (close : Action (ContainerWriter ω × ω) Unit) := by
  apply lags_current_bind
  intro writer
  have hFlush :
      FrameWriter.LagsLike Fails Alike Behind origin
        (onOutlet (Outlet.onCapture Capture.flush) >>= fun _ =>
          onOutlet Outlet.flushChannel :
          Action (ContainerWriter ω × ω) Unit) :=
    (lags_onOutlet h.same h.capture).bind fun _ =>
      lags_onOutlet h.same h.channel
  apply Step.Lags.ite _ hFlush
  exact (lags_finish h).bind fun _ => hFlush

/- A container writer lags if its parts do. -/
theorem lagging
    (h : PartsLag Fails Alike Behind)
    (origin : Regrouper) :
    FrameWriter.Lagging ContainerWriter Fails Alike Behind
      origin where
  write := lags_write h
  flush :=
    (lags_flushFrames h).bind fun _ =>
      lags_onOutlet h.same h.flush
  finish := lags_finish h
  reset := lags_reset
  close := lags_close h

end ContainerWriter

------------------------------------------------------------
-- Raw Writers
------------------------------------------------------------

namespace RawWriter

/- All that a raw writer does to its outlet lags. -/
structure PartsLag
    (Fails : Error → Prop)
    (Alike Behind : Outlet ω × ω → Outlet ω × ω → Prop) : Prop
    extends Outlet.FlushesLag Fails Alike Behind where
  frame :
    ∀ block packed,
      (Outlet.emit Frame.rawPieces block packed).Lags Fails Alike
        Behind

theorem partsLag_of_puts
    (h : Outlet.PutsLag Fails Alike Behind) :
    PartsLag Fails Alike Behind where
  toFlushesLag := h.toFlushesLag
  frame := h.emit Frame.rawPieces

theorem lags_onOutlet
    (hSame : ∀ s t, Alike s t → s.1 = t.1)
    {action : Action (Outlet ω × ω) α}
    (hAction : action.Lags Fails Alike Behind) :
    FrameWriter.LagsLike Fails Alike Behind origin
      (onOutlet action : Action (RawWriter ω × ω) α) :=
  FrameWriter.lags_within_outlet
    (fun outlet (writer : RawWriter ω) =>
      { writer with outlet := outlet })
    (fun _ _ => rfl) (fun _ _ => rfl) hSame hAction

theorem lags_onRegrouper
    (hSame : ∀ s t, Alike s t → s.1 = t.1)
    {action : Action (Regrouper × Outlet ω × ω) α}
    (hAction :
      action.Lags Fails (Abreast origin.Kin Alike)
        (Astern origin.Kin Behind)) :
    FrameWriter.LagsLike Fails Alike Behind origin
      (onRegrouper action : Action (RawWriter ω × ω) α) :=
  FrameWriter.lags_within_parts
    (fun regrouper outlet (writer : RawWriter ω) =>
      { writer with
        outlet := outlet
        regrouper := regrouper })
    (fun _ _ _ => rfl) (fun _ _ _ => rfl) hSame hAction

theorem lags_flush
    (h : PartsLag Fails Alike Behind) :
    FrameWriter.LagsLike Fails Alike Behind origin
      (flush : Action (RawWriter ω × ω) Unit) :=
  (lags_onRegrouper h.same (Regrouper.lags_flush h.frame)).bind
    fun _ => lags_onOutlet h.same h.flush

theorem lags_finish
    (h : PartsLag Fails Alike Behind) :
    FrameWriter.LagsLike Fails Alike Behind origin
      (finish : Action (RawWriter ω × ω) Nat) := by
  apply (lags_flush h).bind
  intro _
  have hSame :
      ∀ s t : RawWriter ω × ω,
        FrameWriter.Alongside origin Alike s t →
          (pure s.1.outlet.frames : Action (RawWriter ω × ω) Nat) =
            pure t.1.outlet.frames := by
    intro s t hAlong
    rw [hAlong.1]
  exact Step.lags_get_bind hSame fun _ => Step.lags_pure _

theorem lags_reset :
    FrameWriter.LagsLike Fails Alike Behind origin
      (reset : Action (RawWriter ω × ω) Unit) := by
  apply Step.lags_modify
  · rintro ⟨writer, left⟩ ⟨_, right⟩ ⟨rfl, hKin, hAlike⟩
    exact ⟨rfl, ⟨hKin.codec, hKin.blockSize⟩, hAlike⟩
  · rintro ⟨_, left⟩ ⟨writer, right⟩ ⟨hKin, hBehind⟩
    exact ⟨⟨hKin.codec, hKin.blockSize⟩, hBehind⟩

/- A raw writer lags if its parts do. -/
theorem lagging
    (h : PartsLag Fails Alike Behind)
    (origin : Regrouper) :
    FrameWriter.Lagging RawWriter Fails Alike Behind
      origin where
  write := fun data =>
    lags_onRegrouper h.same (Regrouper.lags_write h.frame data)
  flush := lags_flush h
  finish := lags_finish h
  reset := lags_reset
  close :=
    (lags_finish h).bind fun _ => lags_onOutlet h.same h.capture

end RawWriter

end SplitStream
