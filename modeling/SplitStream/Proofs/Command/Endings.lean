import SplitStream.Command.Session

/-
  How steps end. A success and a failure each leave a state,
  and a command that is made of steps ends as these do, one
  after another and with what is cleaned up behind them.

  Main declarations:
    * `Step.Ends`
    * `Step.Ends.bind`
    * `Step.Ends.ensuring`
    * `Step.Ends.onFailure`
    * `Step.Succeeds`
    * `Step.Maintains`
    * `Command.ends_onFiles`
    * `Command.ends_during`
    * `Command.succeeds_onFiles`
    * `Command.succeeds_noteAll`
-/

------------------------------------------------------------
-- Steps
------------------------------------------------------------

namespace SplitStream

namespace Step

variable {ε σ α β : Type}

/- What a step leaves from a state, whether or not it fails. -/
def Ends
    (step : Step ε σ α)
    (s : σ)
    (Done : α → σ → Prop)
    (Fails : ε → σ → Prop) : Prop :=
  match step.perform s with
  | (.ok a, t) => Done a t
  | (.error e, t) => Fails e t

variable
  {step : Step ε σ α} {s t : σ} {a : α} {e : ε}
  {Done Done' : α → σ → Prop} {Fails Fails' : ε → σ → Prop}

theorem ends_of_ok
    (h : step.perform s = (.ok a, t))
    (hDone : Done a t) :
    step.Ends s Done Fails := by
  rw [Ends, h]
  exact hDone

theorem ends_of_error
    (h : step.perform s = (.error e, t))
    (hFails : Fails e t) :
    step.Ends s Done Fails := by
  rw [Ends, h]
  exact hFails

/- What a step leaves in any case, it leaves at both ends. -/
theorem ends_of_final
    {Holds : σ → Prop}
    (h : Holds (step.final s)) :
    step.Ends s (fun _ => Holds) (fun _ => Holds) := by
  unfold final at h
  rcases hStep : step.perform s with ⟨e | a, t⟩
  · rw [hStep] at h
    exact ends_of_error hStep h
  · rw [hStep] at h
    exact ends_of_ok hStep h

theorem Ends.of_ok
    (h : step.Ends s Done Fails)
    (hStep : step.perform s = (.ok a, t)) :
    Done a t := by
  rwa [Ends, hStep] at h

theorem Ends.of_error
    (h : step.Ends s Done Fails)
    (hStep : step.perform s = (.error e, t)) :
    Fails e t := by
  rwa [Ends, hStep] at h

theorem Ends.mono
    (h : step.Ends s Done Fails)
    (hDone : ∀ a t, Done a t → Done' a t)
    (hFails : ∀ e t, Fails e t → Fails' e t) :
    step.Ends s Done' Fails' := by
  rcases hStep : step.perform s with ⟨e | a, t⟩
  · exact ends_of_error hStep (hFails e t (h.of_error hStep))
  · exact ends_of_ok hStep (hDone a t (h.of_ok hStep))

theorem Ends.fails
    (h : step.Ends s Done Fails)
    (hFails : ∀ e t, Fails e t → Fails' e t) :
    step.Ends s Done Fails' :=
  h.mono (fun _ _ hDone => hDone) hFails

theorem ends_get
    (s : σ) :
    (get : Step ε σ σ).Ends s (fun a t => a = s ∧ t = s) Fails :=
  ends_of_ok (perform_get s) ⟨rfl, rfl⟩

theorem ends_ofExcept
    (result : Except ε α)
    (s : σ) :
    (ofExcept result : Step ε σ α).Ends s
      (fun a t => result = .ok a ∧ t = s)
      (fun e t => result = .error e ∧ t = s) := by
  have hPerform := perform_ofExcept result s
  cases result with
  | error e => exact ends_of_error hPerform ⟨rfl, rfl⟩
  | ok a => exact ends_of_ok hPerform ⟨rfl, rfl⟩

/- A sequence goes on from what a success has left. -/
theorem Ends.bind
    {next : α → Step ε σ β}
    {Last : β → σ → Prop}
    (h : step.Ends s Done Fails)
    (hNext :
      ∀ a t, Done a t → (next a).Ends t Last Fails) :
    (step >>= next).Ends s Last Fails := by
  rcases hStep : step.perform s with ⟨e | a, t⟩
  · exact
      ends_of_error (perform_bind_of_error hStep)
        (h.of_error hStep)
  · have hLast := hNext a t (h.of_ok hStep)
    rwa [Ends, ← perform_bind_of_ok hStep] at hLast

/- What is always cleaned up comes behind both ends. -/
theorem Ends.ensuring
    {cleanup : σ → σ}
    (h : step.Ends s Done Fails)
    (hDone : ∀ a t, Done a t → Done' a (cleanup t))
    (hFails : ∀ e t, Fails e t → Fails' e (cleanup t)) :
    (Step.ensuring cleanup step).Ends s Done' Fails' := by
  rcases hStep : step.perform s with ⟨e | a, t⟩
  · refine ends_of_error ?_ (hFails e t (h.of_error hStep))
    rw [perform_ensuring, final, hStep]
  · refine ends_of_ok ?_ (hDone a t (h.of_ok hStep))
    rw [perform_ensuring, final, hStep]

/- What is cleaned up after a failure comes behind failures. -/
theorem Ends.onFailure
    {cleanup : σ → σ}
    (h : step.Ends s Done Fails)
    (hCleanup : ∀ e t, Fails e t → Fails' e (cleanup t)) :
    (Step.onFailure cleanup step).Ends s Done Fails' := by
  rcases hStep : step.perform s with ⟨e | a, t⟩
  · exact
      ends_of_error (perform_onFailure_of_error hStep)
        (hCleanup e t (h.of_error hStep))
  · exact
      ends_of_ok (perform_onFailure_of_ok hStep) (h.of_ok hStep)

/- A step does not fail, and leaves what it should. -/
abbrev Succeeds
    (step : Step ε σ α)
    (s : σ)
    (Done : α → σ → Prop) : Prop :=
  step.Ends s Done fun _ _ => False

/- What can end in no failure succeeds. -/
theorem Ends.succeeds
    (h : step.Ends s Done Fails)
    (hNever : ∀ e t, ¬ Fails e t) :
    step.Succeeds s Done :=
  h.fails hNever

theorem succeeds_of_ok
    (h : step.perform s = (.ok a, t)) :
    step.Succeeds s (fun b u => b = a ∧ u = t) :=
  ends_of_ok h ⟨rfl, rfl⟩

theorem Succeeds.exists_ok
    (h : step.Succeeds s Done) :
    ∃ a t, step.perform s = (.ok a, t) ∧ Done a t := by
  rcases hStep : step.perform s with ⟨e | a, t⟩
  · exact (h.of_error hStep).elim
  · exact ⟨a, t, rfl, h.of_ok hStep⟩

theorem Succeeds.mono
    (h : step.Succeeds s Done)
    (hDone : ∀ a t, Done a t → Done' a t) :
    step.Succeeds s Done' :=
  Ends.mono h hDone fun _ _ => False.elim

/- What comes behind a success may fail. -/
theorem Succeeds.followed
    {next : α → Step ε σ β}
    {Last : β → σ → Prop}
    (h : step.Succeeds s Done)
    (hNext :
      ∀ a t, Done a t → (next a).Ends t Last Fails) :
    (step >>= next).Ends s Last Fails :=
  Ends.bind (h.fails fun _ _ => False.elim) hNext

theorem Succeeds.ensuring
    {cleanup : σ → σ}
    (h : step.Succeeds s Done)
    (hDone : ∀ a t, Done a t → Done' a (cleanup t)) :
    (Step.ensuring cleanup step).Succeeds s Done' :=
  Ends.ensuring h hDone fun _ _ => False.elim

/- What succeeds is not cleaned up. -/
theorem Succeeds.onFailure
    (h : step.Succeeds s Done)
    (cleanup : σ → σ) :
    (Step.onFailure cleanup step).Succeeds s Done :=
  Ends.onFailure h fun _ _ => False.elim

end Step

------------------------------------------------------------
-- Invariants
------------------------------------------------------------

namespace Step

variable
  {ε σ τ α β : Type} {Holds : σ → Prop} {Allowed : ε → Prop}

/-
  What holds before a step holds after it, and the step fails
  only in the ways that are allowed.
-/
def Maintains
    (Holds : σ → Prop)
    (Allowed : ε → Prop)
    (step : Step ε σ α) : Prop :=
  ∀ s,
    Holds s →
      step.Ends s (fun _ => Holds)
        (fun e t => Holds t ∧ Allowed e)

theorem maintains_pure
    (a : α) :
    (pure a : Step ε σ α).Maintains Holds Allowed :=
  fun s h => ends_of_ok (perform_pure a s) h

theorem maintains_throw
    {e : ε}
    (hAllowed : Allowed e) :
    (throw e : Step ε σ α).Maintains Holds Allowed :=
  fun s h => ends_of_error (perform_throw e s) ⟨h, hAllowed⟩

theorem maintains_ofExcept
    {result : Except ε α}
    (hAllowed : ∀ e, result = .error e → Allowed e) :
    (ofExcept result : Step ε σ α).Maintains Holds Allowed := by
  intro s h
  apply (ends_ofExcept result s).mono
  · rintro a t ⟨_, rfl⟩
    exact h
  · rintro e t ⟨hError, rfl⟩
    exact ⟨h, hAllowed e hError⟩

theorem maintains_get :
    (get : Step ε σ σ).Maintains Holds Allowed :=
  fun s h => ends_of_ok (perform_get s) h

theorem maintains_modify
    {f : σ → σ}
    (hHolds : ∀ s, Holds s → Holds (f s)) :
    (modify f : Step ε σ PUnit).Maintains Holds Allowed :=
  fun s h => ends_of_ok (perform_modify f s) (hHolds s h)

theorem Maintains.bind
    {step : Step ε σ α}
    {next : α → Step ε σ β}
    (h : step.Maintains Holds Allowed)
    (hNext : ∀ a, (next a).Maintains Holds Allowed) :
    (step >>= next).Maintains Holds Allowed :=
  fun s hHolds => (h s hHolds).bind fun a t => hNext a t

theorem Maintains.ite
    {condition : Prop}
    [Decidable condition]
    {left right : Step ε σ α}
    (hLeft : left.Maintains Holds Allowed)
    (hRight : right.Maintains Holds Allowed) :
    (if condition then left else right).Maintains Holds
      Allowed := by
  split
  · exact hLeft
  · exact hRight

/- A step on a part keeps what the part has to do with. -/
theorem Maintains.within
    {HoldsPart : τ → Prop}
    {get : σ → τ}
    {set : τ → σ → σ}
    {step : Step ε τ α}
    (h : step.Maintains HoldsPart Allowed)
    (hGet : ∀ s, Holds s → HoldsPart (get s))
    (hSet :
      ∀ part s, Holds s → HoldsPart part → Holds (set part s)) :
    (Step.within get set step).Maintains Holds Allowed := by
  intro s hHolds
  have hPart := h (get s) (hGet s hHolds)
  rcases hStep : step.perform (get s) with ⟨e | a, part⟩
  · rcases hPart.of_error hStep with ⟨hAfter, hAllowed⟩
    apply ends_of_error (e := e) (t := set part s)
    · rw [perform_within, hStep]
    · exact ⟨hSet part s hHolds hAfter, hAllowed⟩
  · apply ends_of_ok (a := a) (t := set part s)
    · rw [perform_within, hStep]
    · exact hSet part s hHolds (hPart.of_ok hStep)

end Step

------------------------------------------------------------
-- Commands
------------------------------------------------------------

namespace Command

variable
  {α : Type} {session : Session}
  {Done : α → Session → Prop} {Fails : Failure → Session → Prop}

/- An action on the files of a session ends as it does. -/
theorem ends_onFiles
    {failure : Error → Failure}
    {action : Action FileSystem α}
    {DoneFiles : α → FileSystem → Prop}
    {FailsFiles : FileSystem → Prop}
    (h :
      action.Ends session.files DoneFiles
        (fun _ => FailsFiles)) :
    (onFiles failure action).Ends session
      (fun a after => DoneFiles a after.files)
      (fun _ after => FailsFiles after.files) := by
  rcases hAction : action.perform session.files with ⟨e | a, fs⟩
  · have hFails : FailsFiles fs := h.of_error hAction
    apply Step.ends_of_error (t := { session with files := fs })
    · rw [onFiles, Step.perform_ofStep, hAction]
      rfl
    · exact hFails
  · have hDone : DoneFiles a fs := h.of_ok hAction
    apply Step.ends_of_ok (t := { session with files := fs })
    · rw [onFiles, Step.perform_ofStep, hAction]
      rfl
    · exact hDone

/- A context is told with a failure. -/
theorem ends_during
    {Fails' : Failure → Session → Prop}
    {context : Context}
    {command : Command α}
    (h : command.Ends session Done Fails)
    (hFails :
      ∀ failure after,
        Fails failure after →
          Fails' (.during context failure) after) :
    (during context command).Ends session Done Fails' := by
  rcases hCommand : command.perform session with ⟨failure | a, t⟩
  · apply Step.ends_of_error (e := .during context failure) (t := t)
    · rw [during, Step.perform_ofStep, hCommand]
      rfl
    · exact hFails failure t (h.of_error hCommand)
  · apply Step.ends_of_ok (a := a) (t := t)
    · rw [during, Step.perform_ofStep, hCommand]
      rfl
    · exact h.of_ok hCommand

/- An action on the files changes nothing else. -/
theorem succeeds_onFiles
    {action : Action FileSystem α}
    {DoneFiles : α → FileSystem → Prop}
    (h : action.Succeeds session.files DoneFiles)
    (failure : Error → Failure) :
    (onFiles failure action).Succeeds session
      (fun a after =>
        after = { session with files := after.files } ∧
        DoneFiles a after.files) := by
  rcases h.exists_ok with ⟨a, fs, hAction, hDone⟩
  apply Step.ends_of_ok (t := { session with files := fs })
  · rw [onFiles, Step.perform_ofStep, hAction]
    rfl
  · exact ⟨rfl, hDone⟩

theorem succeeds_during
    {command : Command α}
    (h : command.Succeeds session Done)
    (context : Context) :
    (during context command).Succeeds session Done :=
  ends_during h fun _ _ => False.elim

/- A note is no failure, and changes nothing else. -/
theorem succeeds_note
    (line : String)
    (session : Session) :
    (note line).Succeeds session
      (fun _ after =>
        after =
          { session with notes := line :: session.notes }) :=
  Step.ends_of_ok rfl rfl

theorem succeeds_noteAll
    (lines : List String)
    (session : Session) :
    (noteAll lines).Succeeds session
      (fun _ after =>
        after.files = session.files ∧
        after.printed = session.printed) := by
  induction lines generalizing session with
  | nil => exact Step.ends_of_ok rfl ⟨rfl, rfl⟩
  | cons line rest ih =>
    refine (succeeds_note line session).bind ?_
    rintro _ _ rfl
    exact ih { session with notes := line :: session.notes }

end Command

end SplitStream
