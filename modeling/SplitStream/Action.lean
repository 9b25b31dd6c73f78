import SplitStream.Error

/-
  This file defines steps that change a state and may fail.
  The state reached before a failure is kept, since later
  steps go on from there.

  Key definitions include:
    * `Step`
    * `Step.ofStep`
    * `Step.perform`
    * `Step.within`
    * `Step.ensuring`
    * `Step.onFailure`
    * `Action`

  A result that went through another one:
    * `ok_of_bind`

  A step is known by what it performs:
    * `Step.perform_bind`
    * `Step.perform_bind_of_ok`
    * `Step.perform_bind_of_error`
-/

------------------------------------------------------------
-- Results
------------------------------------------------------------

namespace SplitStream

/- A success that went through a result went through a success. -/
theorem ok_of_bind
    {ε α β : Type}
    {result : Except ε α}
    {next : α → Except ε β}
    {b : β}
    (h : result >>= next = .ok b) :
    ∃ a, result = .ok a ∧ next a = .ok b := by
  cases result with
  | error e => cases h
  | ok a => exact ⟨a, rfl, h⟩

/- A result was a success if something is seen of it. -/
theorem ok_of_map
    {ε α β : Type}
    {result : Except ε α}
    {view : α → β}
    {b : β}
    (hView : result.map view = .ok b) :
    ∃ a, result = .ok a ∧ view a = b := by
  cases result with
  | error e => cases hView
  | ok a => exact ⟨a, rfl, Except.ok.inj hView⟩

------------------------------------------------------------
-- Steps
------------------------------------------------------------

/- A step that changes a state, and may fail for a reason. -/
abbrev Step
    (ε σ α : Type) : Type :=
  ExceptT ε (StateM σ) α

namespace Step

variable {ε σ τ α : Type}

/- The step given by its outcome and its final state. -/
def ofStep
    (step : σ → Except ε α × σ) : Step ε σ α :=
  ExceptT.mk step

/- The outcome and the final state of a step. -/
def perform
    (step : Step ε σ α)
    (s : σ) : Except ε α × σ :=
  step.run.run s

@[simp]
theorem perform_ofStep
    (step : σ → Except ε α × σ)
    (s : σ) :
    (ofStep step).perform s = step s :=
  rfl

@[simp]
theorem perform_pure
    (a : α)
    (s : σ) :
    (pure a : Step ε σ α).perform s = (.ok a, s) :=
  rfl

@[simp]
theorem perform_throw
    (e : ε)
    (s : σ) :
    (throw e : Step ε σ α).perform s = (.error e, s) :=
  rfl

/- A sequence goes on after a success, and stops otherwise. -/
theorem perform_bind
    {β : Type}
    (step : Step ε σ α)
    (next : α → Step ε σ β)
    (s : σ) :
    (step >>= next).perform s =
      match step.perform s with
      | (.ok a, t) => (next a).perform t
      | (.error e, t) => (.error e, t) := by
  simp only [perform, bind, ExceptT.bind, ExceptT.mk, StateT.bind,
    ExceptT.run, StateT.run, ExceptT.bindCont]
  rcases step s with ⟨_ | _, _⟩ <;> rfl

/- A sequence goes on where its first step succeeds. -/
theorem perform_bind_of_ok
    {β : Type}
    {step : Step ε σ α}
    {next : α → Step ε σ β}
    {s t : σ}
    {a : α}
    (h : step.perform s = (.ok a, t)) :
    (step >>= next).perform s = (next a).perform t := by
  rw [perform_bind, h]

/- A sequence stops where its first step fails. -/
theorem perform_bind_of_error
    {β : Type}
    {step : Step ε σ α}
    {next : α → Step ε σ β}
    {s t : σ}
    {e : ε}
    (h : step.perform s = (.error e, t)) :
    (step >>= next).perform s = (.error e, t) := by
  rw [perform_bind, h]

/- A sequence that succeeds has gone through its first step. -/
theorem ok_of_perform_bind
    {β : Type}
    {step : Step ε σ α}
    {next : α → Step ε σ β}
    {s u : σ}
    {b : β}
    (h : (step >>= next).perform s = (.ok b, u)) :
    ∃ a t,
      step.perform s = (.ok a, t) ∧
      (next a).perform t = (.ok b, u) := by
  rw [perform_bind] at h
  cases hStep : step.perform s with
  | mk result t =>
    rw [hStep] at h
    cases result with
    | error e => cases h
    | ok a => exact ⟨a, t, rfl, h⟩

@[simp]
theorem perform_map
    {β : Type}
    (f : α → β)
    (step : Step ε σ α)
    (s : σ) :
    (f <$> step).perform s =
      ((step.perform s).1.map f, (step.perform s).2) := by
  change (step >>= fun a => pure (f a)).perform s = _
  rw [perform_bind]
  rcases step.perform s with ⟨_ | _, _⟩ <;> rfl

/- A refusal that was passed had no reason to refuse. -/
theorem ok_of_perform_unless
    {β : Type}
    {condition : Prop}
    [Decidable condition]
    {e : ε}
    {after : Unit → Step ε σ β}
    {s u : σ}
    {b : β}
    (h :
      (have jump := after
       if condition then
        (throw e : Step ε σ Unit) >>= jump
      else
        jump ()).perform s =
        (.ok b, u)) :
    ¬ condition ∧ (after ()).perform s = (.ok b, u) := by
  by_cases hCondition : condition
  · simp only [hCondition, if_true] at h
    rcases ok_of_perform_bind h with ⟨_, _, hThrow, _⟩
    cases hThrow
  · simp only [hCondition, if_false] at h
    exact ⟨hCondition, h⟩

@[simp]
theorem perform_get
    (s : σ) :
    (get : Step ε σ σ).perform s = (.ok s, s) :=
  rfl

@[simp]
theorem perform_modify
    (f : σ → σ)
    (s : σ) :
    (modify f : Step ε σ PUnit).perform s = (.ok ⟨⟩, f s) :=
  rfl

@[simp]
theorem perform_set
    (s t : σ) :
    (set t : Step ε σ PUnit).perform s = (.ok ⟨⟩, t) :=
  rfl

@[simp]
theorem perform_ofExcept
    (result : Except ε α)
    (s : σ) :
    (ofExcept result : Step ε σ α).perform s = (result, s) := by
  rcases result with _ | _ <;> rfl

------------------------------------------------------------
-- Parts Of A State
------------------------------------------------------------

/- A step on one part of a larger state. -/
def within
    (get : σ → τ)
    (set : τ → σ → σ)
    (step : Step ε τ α) : Step ε σ α :=
  ofStep fun s =>
    let (result, part) := step.perform (get s)
    (result, set part s)

@[simp]
theorem perform_within
    (get : σ → τ)
    (set : τ → σ → σ)
    (step : Step ε τ α)
    (s : σ) :
    (within get set step).perform s =
      ((step.perform (get s)).1,
        set (step.perform (get s)).2 s) :=
  rfl

------------------------------------------------------------
-- Cleaning Up
------------------------------------------------------------

/- The state that a step leaves, whatever its outcome. -/
def final
    (step : Step ε σ α)
    (s : σ) : σ :=
  (step.perform s).2

/- Clean up after a step, whether or not it fails. -/
def ensuring
    (cleanup : σ → σ)
    (step : Step ε σ α) : Step ε σ α :=
  ofStep fun s =>
    let (result, t) := step.perform s
    (result, cleanup t)

@[simp]
theorem perform_ensuring
    (cleanup : σ → σ)
    (step : Step ε σ α)
    (s : σ) :
    (ensuring cleanup step).perform s =
      ((step.perform s).1, cleanup (step.final s)) :=
  rfl

/- Clean up after a step if it fails. -/
def onFailure
    (cleanup : σ → σ)
    (step : Step ε σ α) : Step ε σ α :=
  ofStep fun s =>
    match step.perform s with
    | (.ok a, t) => (.ok a, t)
    | (.error e, t) => (.error e, cleanup t)

/- Nothing is cleaned up after a success. -/
theorem perform_onFailure_of_ok
    {cleanup : σ → σ}
    {step : Step ε σ α}
    {s t : σ}
    {a : α}
    (h : step.perform s = (.ok a, t)) :
    (onFailure cleanup step).perform s = (.ok a, t) := by
  simp [onFailure, h]

/- A failure is kept, and cleaned up after. -/
theorem perform_onFailure_of_error
    {cleanup : σ → σ}
    {step : Step ε σ α}
    {s t : σ}
    {e : ε}
    (h : step.perform s = (.error e, t)) :
    (onFailure cleanup step).perform s =
      (.error e, cleanup t) := by
  simp [onFailure, h]

end Step

------------------------------------------------------------
-- Actions
------------------------------------------------------------

/- A step of the library, which fails with an error. -/
abbrev Action
    (σ α : Type) : Type :=
  Step Error σ α

end SplitStream
