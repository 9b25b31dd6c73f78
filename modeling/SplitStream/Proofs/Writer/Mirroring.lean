import SplitStream.Proofs.Writer.Lockstep
import SplitStream.Proofs.Writer.Simulation
import SplitStream.Writer.Container
import SplitStream.Writer.Raw

/-
  Writers that capture an index beside the same writers that
  do not. The index is written to a channel that never fails
  and that the data channel does not notice. The two writers
  do the same until an offset is to be recorded twice: then
  the one that captures refuses the frame.

  Main declarations:
    * `Error.Unordered`
    * `Channel.Unseen`
    * `Outlet.Mirrors`
    * `Outlet.mirrors_emit`
    * `Outlet.mirrors_flush`
    * `ContainerWriter.Mirrors`
    * `RawWriter.Mirrors`
-/

------------------------------------------------------------
-- Channels
------------------------------------------------------------

namespace SplitStream

/- The error for an offset that is not behind the last one. -/
def Error.Unordered
    (e : Error) : Prop :=
  ∃ previous offset, e = .unorderedIndex previous offset

/- An error that is not about the order of an index. -/
def Error.Orderly
    (e : Error) : Prop :=
  ¬ e.Unordered

theorem Error.orderly_io
    (kind : IoKind) :
    (Error.io kind).Orderly := by
  rintro ⟨_, _, hSame⟩
  cases hSame

theorem Error.orderly_misuse
    (misuse : Misuse) :
    (Error.misuse misuse).Orderly := by
  rintro ⟨_, _, hSame⟩
  cases hSame

theorem Regrouper.Refuses.orderly
    {e : Error}
    (h : Refuses (fun _ => False) e) :
    e.Orderly := by
  rintro ⟨_, _, rfl⟩
  cases h with
  | emission hNever => exact hNever

variable {ω : Type} {Alike : ω → ω → Prop}

namespace Channel

/-
  A channel that never fails. What is done to it leaves the
  worlds alike.
-/
structure Unseen
    (Alike : ω → ω → Prop)
    (channel : Channel ω) : Prop where
  write :
    ∀ bs left right,
      bs ≠ [] →
      Alike left right →
        ∃ n next,
          channel.write bs left = (.ok (n + 1), next) ∧
          Alike next right
  flush :
    ∀ left right,
      Alike left right →
        ∃ next,
          channel.flush left = (.ok (), next) ∧
          Alike next right

theorem Unseen.deliverFrom
    {channel : Channel ω}
    (hChannel : channel.Unseen Alike)
    (taken : Nat)
    (bs : Bytes)
    {left right : ω}
    (hAlike : Alike left right) :
    ∃ n next,
      channel.deliverFrom taken bs left = ⟨.ok (), n, next⟩ ∧
      Alike next right := by
  induction hLength : bs.length using Nat.strongRecOn
    generalizing taken bs left
  rename_i length ih
  cases bs with
  | nil => exact ⟨taken, left, by rw [Channel.deliverFrom], hAlike⟩
  | cons b rest =>
    rcases hChannel.write (b :: rest) left right
      (List.cons_ne_nil _ _) hAlike with ⟨n, next, hWrite, hNext⟩
    have hLess : (rest.drop n).length < length := by
      rw [← hLength, List.length_drop, List.length_cons]
      omega
    rcases ih _ hLess (taken + (n + 1)) (rest.drop n) hNext rfl
      with ⟨total, last, hRest, hLast⟩
    refine ⟨total, last, ?_, hLast⟩
    rw [Channel.deliverFrom, hWrite]
    exact hRest

theorem Unseen.deliver
    {channel : Channel ω}
    (hChannel : channel.Unseen Alike)
    (bs : Bytes)
    {left right : ω}
    (hAlike : Alike left right) :
    ∃ n next,
      channel.deliver bs left = ⟨.ok (), n, next⟩ ∧
      Alike next right :=
  hChannel.deliverFrom 0 bs hAlike

end Channel

------------------------------------------------------------
-- Captures
------------------------------------------------------------

namespace Capture

/- The batch is written, and nothing else is seen of it. -/
theorem flush_unseen
    {capture : Capture ω}
    (hChannel : capture.channel.Unseen Alike)
    {left right : ω}
    (hAlike : Alike left right) :
    ∃ next,
      flush.perform (capture, left) =
        (.ok (), { capture with batch := .empty }, next) ∧
      Alike next right := by
  rcases hChannel.deliver capture.batch.toBytes hAlike with
    ⟨n, middle, hBatch, hMiddle⟩
  rcases hChannel.flush middle right hMiddle with
    ⟨next, hFlush, hNext⟩
  refine ⟨next, ?_, hNext⟩
  simp only [flush, Step.perform_ofStep, hBatch, hFlush]
  rfl

/-
  An offset is recorded, unless it is not behind the last
  one: then it is refused, and nothing is changed.
-/
theorem record_unseen
    {capture : Capture ω}
    (hChannel : capture.channel.Unseen Alike)
    (offset : Nat)
    {left right : ω}
    (hAlike : Alike left right) :
    (∃ next later,
      (record offset).perform (capture, left) =
        (.ok (), next, later) ∧
      next.channel = capture.channel ∧
      next.last = some offset ∧
      Alike later right) ∨
    ∃ previous,
      capture.last = some previous ∧
      offset ≤ previous ∧
      (record offset).perform (capture, left) =
        (.error (.unorderedIndex previous offset), capture,
          left) := by
  rcases record_cases capture offset with
    hOrder | ⟨previous, hLast, hLe, hRefused⟩
  · left
    rw [perform_record hOrder]
    by_cases hFull :
        batchEntries * FrameIndex.entrySize ≤ capture.batch.size
    · rcases flush_unseen hChannel hAlike with
        ⟨later, hFlush, hLater⟩
      rw [if_pos hFull, Step.perform_bind_of_ok hFlush]
      exact ⟨_, later, rfl, rfl, rfl, hLater⟩
    · rw [if_neg hFull]
      exact ⟨_, left, rfl, rfl, rfl, hAlike⟩
  · right
    exact ⟨previous, hLast, hLe, hRefused left⟩

end Capture

------------------------------------------------------------
-- Outlets
------------------------------------------------------------

namespace Outlet

/-
  An outlet and the same one without a capture. If the first
  one captures, the last offset that it has recorded does not
  lie behind its position.
-/
structure Mirrors
    (Alike : ω → ω → Prop)
    (captured : Bool)
    (left right : Outlet ω) : Prop where
  channel : left.channel = right.channel
  written : left.written = right.written
  frames : left.frames = right.frames
  plain : right.capture = none
  inStep : right.channel.InStep Alike fun _ => False
  captured : left.capture.isSome = captured
  capture :
    ∀ capture ∈ left.capture,
      capture.channel.Unseen Alike ∧
      ∀ last ∈ capture.last, last ≤ left.written

/- Outlets that mirror each other, in worlds that are alike. -/
def Mirrored
    (Alike : ω → ω → Prop)
    (captured : Bool)
    (left right : Outlet ω × ω) : Prop :=
  Mirrors Alike captured left.1 right.1 ∧ Alike left.2 right.2

/-
  A frame was refused since the offset at its position has
  been recorded before.
-/
def Balks
    (captured : Bool)
    (e : Error)
    (state : Outlet ω × ω) : Prop :=
  captured = true ∧
  e = .unorderedIndex state.1.written state.1.written

variable {α : Type} {captured : Bool}

/- An action that outlets follow each other in. -/
def KeepsMirror
    (Alike : ω → ω → Prop)
    (captured : Bool)
    (action : Action (Outlet ω × ω) α) : Prop :=
  Step.Simulates Error.Orderly (Mirrored Alike captured)
    (Balks captured) action action

/- The same for an action of a regrouper in front. -/
def KeepsMirrorBeside
    (Alike : ω → ω → Prop)
    (captured : Bool)
    (action : Action (Regrouper × Outlet ω × ω) α) : Prop :=
  Step.Simulates Error.Orderly
    (Beside (Mirrored Alike captured))
    (LostBeside (Balks captured)) action action

theorem mirrors_put
    (bs : Bytes) :
    KeepsMirror Alike captured
      (put bs : Action (Outlet ω × ω) Unit) := by
  rintro ⟨left, s⟩ ⟨right, t⟩ hMirrored
  have hMirrors : Mirrors Alike captured left right := hMirrored.1
  have hAlike : Alike s t := hMirrored.2
  rcases hMirrors with
    ⟨hChannel, hWritten, hFrames, hPlain, hInStep, hCaptured,
      hCapture⟩
  rcases hInStep.deliver bs hAlike with
    ⟨result, n, s', t', hLeft, hRight, hBoth⟩ |
      ⟨_, _, _, _, hNever⟩
  · left
    refine
      ⟨result.mapError .io,
        ({ left with written := left.written + n }, s'),
        ({ right with written := right.written + n }, t'),
        ?_, ?_, ⟨?_, hBoth⟩, ?_⟩
    · simp only [put, Step.perform_ofStep, hChannel, hLeft]
    · simp only [put, Step.perform_ofStep, hRight]
    · exact
        { channel := hChannel
          written := by rw [hWritten]
          frames := hFrames
          plain := hPlain
          inStep := hInStep
          captured := hCaptured
          capture := by
            intro capture hSome
            rcases hCapture capture hSome with ⟨hUnseen, hLast⟩
            refine ⟨hUnseen, fun last hMem => ?_⟩
            exact
              Nat.le_trans (hLast last hMem)
                (Nat.le_add_right _ _) }
    · intro e hError
      cases result with
      | ok _ => cases hError
      | error kind =>
        cases hError
        exact Error.orderly_io kind
  · exact hNever.elim

theorem mirrors_putAll
    (pieces : List Bytes) :
    KeepsMirror Alike captured
      (putAll pieces : Action (Outlet ω × ω) Unit) := by
  induction pieces with
  | nil => exact Step.simulates_pure ()
  | cons piece pieces ih =>
    exact (mirrors_put piece).bind fun _ => ih

theorem mirrors_putHeader
    (fields : Header) :
    KeepsMirror Alike captured
      (putHeader fields : Action (Outlet ω × ω) Nat) := by
  have hPut :
      KeepsMirror Alike captured
        (putAll fields.pieces >>= fun _ =>
          pure fields.writtenLength :
          Action (Outlet ω × ω) Nat) :=
    (mirrors_putAll fields.pieces).bind fun _ =>
      Step.simulates_pure _
  apply Step.Simulates.ite _ hPut
  apply Step.Simulates.bind _ fun _ => hPut
  exact Step.simulates_throw (Error.orderly_misuse _)

/-
  The position of a frame is recorded on the side that
  captures, or it is the last offset and is refused.
-/
theorem record_mirrored
    {left right : Outlet ω}
    {s t : ω}
    (hMirrored : Mirrored Alike captured (left, s) (right, t)) :
    Step.Matched Error.Orderly
      (Mirrored Alike captured) (Balks captured)
      ((onCapture (Capture.record left.written)).perform
        (left, s))
      ((onCapture (Capture.record right.written)).perform
        (right, t)) := by
  have hMirrors : Mirrors Alike captured left right := hMirrored.1
  have hAlike : Alike s t := hMirrored.2
  rcases hMirrors with
    ⟨hChannel, hWritten, hFrames, hPlain, hInStep, hCaptured,
      hCapture⟩
  have hRight :
      (onCapture (Capture.record right.written)).perform
          (right, t) =
        (.ok (), right, t) := by
    simp only [onCapture, Step.perform_ofStep, hPlain]
  cases hLeft : left.capture with
  | none =>
    have hNone :
        (onCapture (Capture.record left.written)).perform
            (left, s) =
          (.ok (), left, s) := by
      simp only [onCapture, Step.perform_ofStep, hLeft]
    rw [hNone, hRight]
    exact Step.matched_ok hMirrored
  | some capture =>
    rcases hCapture capture hLeft with ⟨hUnseen, hLast⟩
    rw [hLeft] at hCaptured
    rcases Capture.record_unseen hUnseen left.written hAlike with
      ⟨next, later, hRecord, hSame, hNext, hLater⟩ |
        ⟨previous, hPrevious, hLe, hRecord⟩
    · have hRecorded :
          (onCapture (Capture.record left.written)).perform
              (left, s) =
            (.ok (), { left with capture := some next },
              later) := by
        simp only [onCapture, Step.perform_ofStep, hLeft, hRecord]
      rw [hRecorded, hRight]
      apply Step.matched_ok
      refine ⟨?_, hLater⟩
      exact
        { channel := hChannel
          written := hWritten
          frames := hFrames
          plain := hPlain
          inStep := hInStep
          captured := hCaptured
          capture := by
            intro other hOther
            cases hOther
            refine ⟨hSame ▸ hUnseen, ?_⟩
            intro last hSome
            rw [hNext] at hSome
            cases hSome
            exact Nat.le_refl _ }
    · have hTwice : previous = left.written :=
        Nat.le_antisymm (hLast previous hPrevious) hLe
      right
      refine
        ⟨.unorderedIndex left.written left.written, (left, s), ?_,
          hCaptured.symm, rfl⟩
      simp only [onCapture, Step.perform_ofStep, hLeft, hRecord,
        hTwice]
      rw [← hLeft]

/- A frame is counted alike behind its pieces. -/
theorem mirrors_putFrame
    (pieces : List Bytes) :
    KeepsMirror Alike captured
      (putAll pieces >>= fun _ =>
        modify fun (outlet, world) =>
          ({ outlet with frames := outlet.frames + 1 }, world) :
        Action (Outlet ω × ω) Unit) := by
  apply (mirrors_putAll pieces).bind
  intro _
  apply Step.simulates_modify
  rintro ⟨left, s⟩ ⟨right, t⟩ ⟨hMirrors, hAlike⟩
  refine ⟨?_, hAlike⟩
  have hFrames : left.frames = right.frames := hMirrors.frames
  exact
    { hMirrors with
      frames := congrArg (· + 1) hFrames }

theorem mirrors_emit
    (layout : Bytes → Bytes → List Bytes)
    (block packed : Bytes) :
    KeepsMirror Alike captured
      (emit layout block packed : Action (Outlet ω × ω) Unit) := by
  apply Step.simulates_get_bind
  rintro ⟨left, s⟩ ⟨right, t⟩ hMirrored
  apply Step.Matched.bind (record_mirrored hMirrored)
  intro _
  exact mirrors_putFrame (layout block packed)

theorem mirrors_flushCapture :
    KeepsMirror Alike captured
      (onCapture Capture.flush : Action (Outlet ω × ω) Unit) := by
  rintro ⟨left, s⟩ ⟨right, t⟩ hMirrored
  have hMirrors : Mirrors Alike captured left right := hMirrored.1
  have hAlike : Alike s t := hMirrored.2
  rcases hMirrors with
    ⟨hChannel, hWritten, hFrames, hPlain, hInStep, hCaptured,
      hCapture⟩
  have hRight :
      (onCapture Capture.flush).perform (right, t) =
        (.ok (), right, t) := by
    simp only [onCapture, Step.perform_ofStep, hPlain]
  cases hLeft : left.capture with
  | none =>
    have hNone :
        (onCapture Capture.flush).perform (left, s) =
          (.ok (), left, s) := by
      simp only [onCapture, Step.perform_ofStep, hLeft]
    rw [hNone, hRight]
    exact Step.matched_ok hMirrored
  | some capture =>
    rcases hCapture capture hLeft with ⟨hUnseen, hLast⟩
    rw [hLeft] at hCaptured
    rcases Capture.flush_unseen hUnseen hAlike with
      ⟨later, hFlush, hLater⟩
    have hFlushed :
        (onCapture Capture.flush).perform (left, s) =
          (.ok (),
            { left with
              capture := some { capture with batch := .empty } },
            later) := by
      simp only [onCapture, Step.perform_ofStep, hLeft, hFlush]
    rw [hFlushed, hRight]
    apply Step.matched_ok
    refine ⟨?_, hLater⟩
    exact
      { channel := hChannel
        written := hWritten
        frames := hFrames
        plain := hPlain
        inStep := hInStep
        captured := hCaptured
        capture := by
          intro other hOther
          cases hOther
          exact ⟨hUnseen, hLast⟩ }

theorem mirrors_flushChannel :
    KeepsMirror Alike captured
      (flushChannel : Action (Outlet ω × ω) Unit) := by
  rintro ⟨left, s⟩ ⟨right, t⟩ hMirrored
  have hMirrors : Mirrors Alike captured left right := hMirrored.1
  rcases hMirrors.inStep.flush s t hMirrored.2 with
    ⟨result, s', t', hLeft, hRight, hBoth⟩ | ⟨_, _, _, hNever⟩
  · rw [Step.perform_ofStep] at hLeft hRight
    left
    refine
      ⟨result.mapError .io, (left, s'), (right, t'), ?_, ?_,
        ⟨hMirrors, hBoth⟩, ?_⟩
    · simp only [flushChannel, Step.perform_ofStep,
        hMirrors.channel, hLeft]
    · simp only [flushChannel, Step.perform_ofStep, hRight]
    · intro e hError
      cases result with
      | ok _ => cases hError
      | error kind =>
        cases hError
        exact Error.orderly_io kind
  · exact hNever.elim

theorem mirrors_flush :
    KeepsMirror Alike captured
      (flush : Action (Outlet ω × ω) Unit) :=
  mirrors_flushCapture.bind fun _ => mirrors_flushChannel

/- The regrouper in front of an outlet follows the other one. -/
theorem mirrors_write
    (layout : Bytes → Bytes → List Bytes)
    (data : Bytes) :
    KeepsMirrorBeside Alike captured
      (Regrouper.write (emit layout) data :
        Action (Regrouper × Outlet ω × ω) Unit) :=
  Regrouper.simulates_write
    (fun _ hRefused => hRefused.orderly) (mirrors_emit layout)
    data

theorem mirrors_flushHeld
    (layout : Bytes → Bytes → List Bytes) :
    KeepsMirrorBeside Alike captured
      (Regrouper.flush (emit layout) :
        Action (Regrouper × Outlet ω × ω) Unit) :=
  Regrouper.simulates_flush
    (fun _ hRefused => hRefused.orderly) (mirrors_emit layout)

end Outlet

------------------------------------------------------------
-- Container Writers
------------------------------------------------------------

namespace ContainerWriter

variable {α : Type}

/- A writer with a capture and the same one without it. -/
structure Mirrors
    (Alike : ω → ω → Prop)
    (captured : Bool)
    (left right : ContainerWriter ω) : Prop where
  outlet : left.outlet.Mirrors Alike captured right.outlet
  regrouper : left.regrouper = right.regrouper
  header : left.header = right.header
  checksums : left.checksums = right.checksums
  stage : left.stage = right.stage

/- Writers that mirror each other, in worlds that are alike. -/
def Mirrored
    (Alike : ω → ω → Prop)
    (captured : Bool)
    (left right : ContainerWriter ω × ω) : Prop :=
  left.1.Mirrors Alike captured right.1 ∧ Alike left.2 right.2

/- A frame was refused at a position recorded before. -/
def Balks
    (captured : Bool)
    (e : Error)
    (state : ContainerWriter ω × ω) : Prop :=
  Outlet.Balks captured e (state.1.outlet, state.2)

variable {captured : Bool}

/- An action that writers follow each other in. -/
def KeepsMirror
    (Alike : ω → ω → Prop)
    (captured : Bool)
    (action : Action (ContainerWriter ω × ω) α) : Prop :=
  Step.Simulates Error.Orderly (Mirrored Alike captured)
    (Balks captured) action action

theorem mirrors_onOutlet
    {action : Action (Outlet ω × ω) α}
    (hAction :
      Outlet.KeepsMirror Alike captured action) :
    KeepsMirror Alike captured (onOutlet action) := by
  apply hAction.within
  · rintro ⟨left, s⟩ ⟨right, t⟩ ⟨hMirrors, hAlike⟩
    exact ⟨hMirrors.outlet, hAlike⟩
  · rintro ⟨left, s⟩ ⟨right, t⟩ ⟨_, s'⟩ ⟨_, t'⟩ ⟨hMirrors, _⟩
      ⟨hOutlet, hAlike⟩
    exact ⟨{ hMirrors with outlet := hOutlet }, hAlike⟩
  · exact fun _ _ _ hBalks => hBalks

theorem mirrors_onRegrouper
    {action : Action (Regrouper × Outlet ω × ω) α}
    (hAction :
      Outlet.KeepsMirrorBeside Alike captured action) :
    KeepsMirror Alike captured (onRegrouper action) := by
  apply hAction.within
  · rintro ⟨left, s⟩ ⟨right, t⟩ ⟨hMirrors, hAlike⟩
    exact ⟨hMirrors.regrouper, hMirrors.outlet, hAlike⟩
  · rintro ⟨left, s⟩ ⟨right, t⟩ ⟨_, _, s'⟩ ⟨_, _, t'⟩
      ⟨hMirrors, _⟩ ⟨hRegrouper, hOutlet, hAlike⟩
    exact
      ⟨{ hMirrors with
          outlet := hOutlet
          regrouper := hRegrouper },
        hAlike⟩
  · exact fun _ _ _ hBalks => hBalks

/- What is done with the current writer looks at both sides. -/
theorem mirrors_current_bind
    {next : ContainerWriter ω → Action (ContainerWriter ω × ω) α}
    (hNext :
      ∀ left right,
        left.Mirrors Alike captured right →
          Step.Simulates Error.Orderly
            (Mirrored Alike captured) (Balks captured)
            (next left) (next right)) :
    KeepsMirror Alike captured (current >>= next) := by
  rintro ⟨left, s⟩ ⟨right, t⟩ hMirrored
  exact hNext left right hMirrored.1 (left, s) (right, t) hMirrored

theorem mirrors_enter
    (stage : MemberStage) :
    KeepsMirror Alike captured
      (enter stage : Action (ContainerWriter ω × ω) Unit) := by
  apply Step.simulates_modify
  rintro ⟨left, s⟩ ⟨right, t⟩ ⟨hMirrors, hAlike⟩
  exact ⟨{ hMirrors with stage := rfl }, hAlike⟩

theorem mirrors_openMember :
    KeepsMirror Alike captured
      (openMember : Action (ContainerWriter ω × ω) Unit) := by
  apply mirrors_current_bind
  intro left right hMirrors
  rw [hMirrors.stage, hMirrors.header]
  apply Step.Simulates.ite _ (Step.simulates_pure ())
  apply (mirrors_onOutlet
    (Outlet.mirrors_putHeader right.header)).bind
  intro _
  exact mirrors_enter .opened

theorem mirrors_write
    (data : Bytes) :
    KeepsMirror Alike captured
      (write data : Action (ContainerWriter ω × ω) Unit) := by
  apply mirrors_current_bind
  intro left right hMirrors
  have hRegroup :
      KeepsMirror Alike captured
        (onRegrouper (Regrouper.write right.emission data) :
          Action (ContainerWriter ω × ω) Unit) :=
    mirrors_onRegrouper (Outlet.mirrors_write _ data)
  have hTake :
      KeepsMirror Alike captured
        (if !data.isEmpty then
          openMember >>= fun _ =>
            onRegrouper (Regrouper.write right.emission data)
        else
          pure () :
          Action (ContainerWriter ω × ω) Unit) :=
    .ite (mirrors_openMember.bind fun _ => hRegroup)
      (Step.simulates_pure ())
  have hEmission :
      (left.emission : Emission (Outlet ω × ω)) =
        right.emission := by
    rw [emission, emission, hMirrors.checksums]
  rw [hMirrors.stage, hEmission]
  apply Step.Simulates.ite _ hTake
  apply Step.Simulates.bind _ fun _ => hTake
  exact Step.simulates_throw (Error.orderly_misuse _)

theorem mirrors_flushFrames :
    KeepsMirror Alike captured
      (flushFrames : Action (ContainerWriter ω × ω) Unit) := by
  apply mirrors_current_bind
  intro left right hMirrors
  have hEmission :
      (left.emission : Emission (Outlet ω × ω)) =
        right.emission := by
    rw [emission, emission, hMirrors.checksums]
  rw [hMirrors.regrouper, hEmission]
  apply Step.Simulates.ite _ (Step.simulates_pure ())
  apply mirrors_openMember.bind
  intro _
  exact mirrors_onRegrouper (Outlet.mirrors_flushHeld _)

theorem mirrors_flush :
    KeepsMirror Alike captured
      (flush : Action (ContainerWriter ω × ω) Unit) :=
  mirrors_flushFrames.bind fun _ =>
    mirrors_onOutlet Outlet.mirrors_flush

theorem mirrors_finish :
    KeepsMirror Alike captured
      (finish : Action (ContainerWriter ω × ω) Nat) := by
  apply mirrors_current_bind
  intro left right hMirrors
  rw [hMirrors.stage, hMirrors.outlet.frames]
  apply Step.Simulates.ite (Step.simulates_pure _)
  apply mirrors_openMember.bind
  intro _
  apply mirrors_flushFrames.bind
  intro _
  apply (mirrors_onOutlet
    (Outlet.mirrors_put Frame.terminator)).bind
  intro _
  apply (mirrors_onOutlet Outlet.mirrors_flush).bind
  intro _
  apply (mirrors_enter .finished).bind
  intro _
  apply mirrors_current_bind
  intro left right hMirrors
  rw [hMirrors.outlet.frames]
  exact Step.simulates_pure _

theorem mirrors_reset :
    KeepsMirror Alike captured
      (reset : Action (ContainerWriter ω × ω) Unit) := by
  apply Step.simulates_modify
  rintro ⟨left, s⟩ ⟨right, t⟩ ⟨hMirrors, hAlike⟩
  have hRegrouper : left.regrouper = right.regrouper :=
    hMirrors.regrouper
  have hStage : left.stage = right.stage := hMirrors.stage
  exact
    ⟨{ hMirrors with
        regrouper := by simp only [hRegrouper]
        stage := by simp only [hStage] },
      hAlike⟩

end ContainerWriter

------------------------------------------------------------
-- Raw Writers
------------------------------------------------------------

namespace RawWriter

variable {α : Type}

/- A writer with a capture and the same one without it. -/
structure Mirrors
    (Alike : ω → ω → Prop)
    (captured : Bool)
    (left right : RawWriter ω) : Prop where
  outlet : left.outlet.Mirrors Alike captured right.outlet
  regrouper : left.regrouper = right.regrouper

/- Writers that mirror each other, in worlds that are alike. -/
def Mirrored
    (Alike : ω → ω → Prop)
    (captured : Bool)
    (left right : RawWriter ω × ω) : Prop :=
  left.1.Mirrors Alike captured right.1 ∧ Alike left.2 right.2

/- A frame was refused at a position recorded before. -/
def Balks
    (captured : Bool)
    (e : Error)
    (state : RawWriter ω × ω) : Prop :=
  Outlet.Balks captured e (state.1.outlet, state.2)

variable {captured : Bool}

/- An action that writers follow each other in. -/
def KeepsMirror
    (Alike : ω → ω → Prop)
    (captured : Bool)
    (action : Action (RawWriter ω × ω) α) : Prop :=
  Step.Simulates Error.Orderly (Mirrored Alike captured)
    (Balks captured) action action

theorem mirrors_onOutlet
    {action : Action (Outlet ω × ω) α}
    (hAction :
      Outlet.KeepsMirror Alike captured action) :
    KeepsMirror Alike captured (onOutlet action) := by
  apply hAction.within
  · rintro ⟨left, s⟩ ⟨right, t⟩ ⟨hMirrors, hAlike⟩
    exact ⟨hMirrors.outlet, hAlike⟩
  · rintro ⟨left, s⟩ ⟨right, t⟩ ⟨_, s'⟩ ⟨_, t'⟩ ⟨hMirrors, _⟩
      ⟨hOutlet, hAlike⟩
    exact ⟨⟨hOutlet, hMirrors.regrouper⟩, hAlike⟩
  · exact fun _ _ _ hBalks => hBalks

theorem mirrors_onRegrouper
    {action : Action (Regrouper × Outlet ω × ω) α}
    (hAction :
      Outlet.KeepsMirrorBeside Alike captured action) :
    KeepsMirror Alike captured (onRegrouper action) := by
  apply hAction.within
  · rintro ⟨left, s⟩ ⟨right, t⟩ ⟨hMirrors, hAlike⟩
    exact ⟨hMirrors.regrouper, hMirrors.outlet, hAlike⟩
  · rintro ⟨left, s⟩ ⟨right, t⟩ ⟨_, _, s'⟩ ⟨_, _, t'⟩ _
      ⟨hRegrouper, hOutlet, hAlike⟩
    exact ⟨⟨hOutlet, hRegrouper⟩, hAlike⟩
  · exact fun _ _ _ hBalks => hBalks

theorem mirrors_write
    (data : Bytes) :
    KeepsMirror Alike captured
      (write data : Action (RawWriter ω × ω) Unit) :=
  mirrors_onRegrouper (Outlet.mirrors_write _ data)

theorem mirrors_flush :
    KeepsMirror Alike captured
      (flush : Action (RawWriter ω × ω) Unit) :=
  (mirrors_onRegrouper (Outlet.mirrors_flushHeld _)).bind
    fun _ => mirrors_onOutlet Outlet.mirrors_flush

theorem mirrors_finish :
    KeepsMirror Alike captured
      (finish : Action (RawWriter ω × ω) Nat) := by
  apply mirrors_flush.bind
  intro _
  apply Step.simulates_get_bind
  rintro ⟨left, s⟩ ⟨right, t⟩ hMirrored
  have hFrames : left.outlet.frames = right.outlet.frames :=
    hMirrored.1.outlet.frames
  rw [hFrames]
  exact Step.simulates_pure _ _ _ hMirrored

theorem mirrors_reset :
    KeepsMirror Alike captured
      (reset : Action (RawWriter ω × ω) Unit) := by
  apply Step.simulates_modify
  rintro ⟨left, s⟩ ⟨right, t⟩ ⟨hMirrors, hAlike⟩
  have hRegrouper : left.regrouper = right.regrouper :=
    hMirrors.regrouper
  exact ⟨⟨hMirrors.outlet, by simp only [hRegrouper]⟩, hAlike⟩

end RawWriter

end SplitStream
