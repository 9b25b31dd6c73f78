import SplitStream.Proofs.Command.Endings
import SplitStream.Proofs.Writer.Capturing
import SplitStream.Proofs.Writer.Conservation
import SplitStream.Proofs.Writer.Division

/-
  Writers whose codec never fails, over any channels. What
  fails a call of a regrouper is the answer of the emission
  to a block, and what fails a call of a writer is a channel
  or a misuse of the writer, but no refusal by the codec.

  Main declarations:
    * `Error.isRefusal`
    * `Regrouper.Stocked`
    * `Regrouper.ends_write`
    * `Regrouper.ends_flush`
    * `Regrouper.Entry.Answered`
    * `Regrouper.History.Answered.run`
    * `FrameWriter.Unrefusing`
    * `RawWriter.unrefusing`
    * `ContainerWriter.unrefusing`
    * `Course.Unrefused.run`
-/

------------------------------------------------------------
-- Refusals
------------------------------------------------------------

namespace SplitStream

/-
  The codec has refused a block, or has reported more than
  its buffer holds.
-/
def Error.isRefusal : Error → Bool
  | codec _ _ => true
  | misuse (.overlongReport _ _ _) => true
  | _ => false

------------------------------------------------------------
-- Regroupers
------------------------------------------------------------

namespace Regrouper

variable
  {σ : Type} {codec : Codec} {blockSize : Nat}
  {regrouper : Regrouper}

/- A regrouper has its codec, and holds a block at most. -/
structure Stocked
    (codec : Codec)
    (blockSize : Nat)
    (regrouper : Regrouper) : Prop where
  codec_eq : regrouper.codec = codec
  blockSize_eq : regrouper.blockSize = blockSize
  held_le : regrouper.held.size ≤ blockSize

theorem Stocked.kin
    {next : Regrouper}
    (h : regrouper.Stocked codec blockSize)
    (hKin : regrouper.Kin next)
    (hHeld : next.held.size ≤ blockSize) :
    next.Stocked codec blockSize where
  codec_eq := hKin.codec.trans h.codec_eq
  blockSize_eq := hKin.blockSize.trans h.blockSize_eq
  held_le := hHeld

theorem Stocked.emptied
    (h : regrouper.Stocked codec blockSize) :
    regrouper.emptied.Stocked codec blockSize :=
  h.kin (kin_emptied regrouper) (Nat.zero_le _)

theorem stocked_of_new
    (hNew : new codec blockSize = .ok regrouper) :
    regrouper.Stocked codec blockSize := by
  unfold new at hNew
  split at hNew
  · cases hNew
    exact ⟨rfl, rfl, Nat.zero_le _⟩
  · cases hNew

/- A block of a writer is packed. -/
theorem Stocked.packs
    (h : regrouper.Stocked codec blockSize)
    (hCodec : codec.NeverFails blockSize)
    {block : Bytes}
    {outcome : Except Error Bytes}
    (hPacks : regrouper.Packs block outcome)
    (hPos : 0 < block.length)
    (hLe : block.length ≤ blockSize) :
    ∃ packed, outcome = .ok packed := by
  rcases h with ⟨rfl, rfl, _⟩
  exact hPacks.ok_of_neverFails hCodec hPos hLe

variable
  {emit : Emission σ} {Holds : σ → Prop}
  {Fails : Error → σ → Prop}

/-
  A write fails only where the emission of a block does. What
  emissions keep of the world stays so throughout.
-/
theorem ends_write
    (hCodec : codec.NeverFails blockSize)
    (hEmit :
      ∀ block packed s,
        Holds s →
          (emit block packed).Ends s (fun _ => Holds) Fails)
    (data : Bytes)
    (hStocked : regrouper.Stocked codec blockSize)
    {s : σ}
    (hHolds : Holds s) :
    (write emit data).Ends (regrouper, s)
      (fun _ t => t.1.Stocked codec blockSize ∧ Holds t.2)
      (fun e t => t.1.Stocked codec blockSize ∧ Fails e t.2) := by
  induction data, regrouper using rounds generalizing s with
  | hLacking data regrouper hLacking =>
    have hLe :
        (regrouper.holding data).held.size ≤ blockSize := by
      rcases hStocked with ⟨_, rfl, hHeld⟩
      by_cases hNil : data = []
      · rw [hNil]
        exact hHeld
      · have hShort : ¬ regrouper.missing ≤ data.length :=
          fun hMissing => hLacking ⟨hNil, hMissing⟩
        rw [missing] at hShort
        rw [holding, Tape.size_append]
        omega
    exact
      Step.ends_of_ok (writeFrom_of_lacking emit hLacking s)
        ⟨hStocked.kin ⟨rfl, rfl⟩ hLe, hHolds⟩
  | hCompletes data regrouper hBlock ih =>
    have hFull : (regrouper.completed data).length = blockSize := by
      rw [hBlock.length
        (hStocked.blockSize_eq ▸ hStocked.held_le),
        hStocked.blockSize_eq]
    have hPos : 1 ≤ blockSize := by
      rw [← hStocked.blockSize_eq]
      exact regrouper.blockSize_pos
    have hOffered :
        (regrouper.offering data).held.size ≤ blockSize := by
      by_cases hHeld : regrouper.held.size = 0
      · rw [offering_of_none data hHeld]
        exact hStocked.held_le
      · rw [Tape.size_eq_length, held_offering data hHeld]
        exact Nat.le_of_eq hFull
    have hOffering :=
      hStocked.kin (regrouper.kin_offering data) hOffered
    have hTried :=
      hStocked.kin (regrouper.kin_tried data) hOffered
    rcases writeFrom_of_completes hBlock with
      ⟨outcome, hPacks, hWrite⟩
    rcases hOffering.packs hCodec hPacks (hFull ▸ hPos)
      (Nat.le_of_eq hFull) with ⟨packed, rfl⟩
    -- The block is packed, so only its emission can fail now.
    have hEmission :=
      hEmit (regrouper.completed data) packed s hHolds
    have hRun :
        (ofExcept (.ok packed) >>=
            emit (regrouper.completed data)).perform s =
          (emit (regrouper.completed data) packed).perform s :=
      Step.perform_bind_of_ok (Step.perform_ofExcept _ s)
    rcases hPerform :
      (emit (regrouper.completed data) packed).perform s with
      ⟨e | _, t⟩
    · have hFails : Fails e t := hEmission.of_error hPerform
      refine
        Step.ends_of_error (t := (regrouper.tried data, t)) ?_
          ⟨hTried, hFails⟩
      change writeFrom emit data regrouper s = _
      rw [hWrite, hRun, hPerform]
    · have hKept : Holds t := hEmission.of_ok hPerform
      have hRest :
          (write emit data).perform (regrouper, s) =
            (write emit (data.drop regrouper.missing)).perform
              ((regrouper.tried data).emptied, t) := by
        change writeFrom emit data regrouper s = _
        rw [hWrite, hRun, hPerform]
        rfl
      rw [Step.Ends, hRest, ← Step.Ends]
      have hKin :=
        (regrouper.kin_tried data).trans (kin_emptied _)
      exact ih _ hKin rfl hTried.emptied hKept

/- A flush fails only where the emission of its block does. -/
theorem ends_flush
    (hCodec : codec.NeverFails blockSize)
    (hEmit :
      ∀ block packed s,
        Holds s →
          (emit block packed).Ends s (fun _ => Holds) Fails)
    (hStocked : regrouper.Stocked codec blockSize)
    {s : σ}
    (hHolds : Holds s) :
    (flush emit).Ends (regrouper, s)
      (fun _ t => t.1.Stocked codec blockSize ∧ Holds t.2)
      (fun e t => t.1.Stocked codec blockSize ∧ Fails e t.2) := by
  by_cases hNone : regrouper.held.size = 0
  · exact
      Step.ends_of_ok (flush_of_none emit hNone s)
        ⟨hStocked, hHolds⟩
  have hLength := regrouper.held.size_eq_length
  have hHeld := hStocked.held_le
  have hSpent :=
    hStocked.kin (kin_spent regrouper regrouper.held.toBytes) hHeld
  rcases flush_of_some hNone with ⟨outcome, hPacks, hFlush⟩
  rcases hStocked.packs hCodec hPacks (by omega) (by omega) with
    ⟨packed, rfl⟩
  have hEmission :=
    hEmit regrouper.held.toBytes packed s hHolds
  have hRun :
      (ofExcept (.ok packed) >>=
          emit regrouper.held.toBytes).perform s =
        (emit regrouper.held.toBytes packed).perform s :=
    Step.perform_bind_of_ok (Step.perform_ofExcept _ s)
  rcases hPerform :
    (emit regrouper.held.toBytes packed).perform s with ⟨e | _, t⟩
  · have hFails : Fails e t := hEmission.of_error hPerform
    refine
      Step.ends_of_error
        (t := (regrouper.spent regrouper.held.toBytes, t)) ?_
        ⟨hSpent, hFails⟩
    rw [hFlush, hRun, hPerform]
  · have hKept : Holds t := hEmission.of_ok hPerform
    refine
      Step.ends_of_ok (a := ())
        (t :=
          ((regrouper.spent regrouper.held.toBytes).emptied, t)) ?_
        ⟨hSpent.emptied, hKept⟩
    rw [hFlush, hRun, hPerform]

------------------------------------------------------------
-- Answers
------------------------------------------------------------

/- An error of a call is the answer to one of its offers. -/
def Entry.Answered
    (entry : Entry) : Prop :=
  ∀ e,
    entry.result = .error e →
      ∃ offer ∈ entry.offers, offer.result = .error e

/- An emission that fails has noted its answer. -/
theorem ends_noting
    (emit : Emission σ)
    (block packed : Bytes)
    (noted : σ × List Offer) :
    (emit.noting block packed).Ends noted (fun _ _ => True)
      (fun e after =>
        ∃ offer ∈ after.2, offer.result = .error e) := by
  rcases noted with ⟨s, offers⟩
  rcases hEmit : (emit block packed).perform s with ⟨e | _, t⟩
  · apply Step.ends_of_error (e := e)
      (t := (t, offers ++ [⟨block, packed, .error e⟩]))
    · rw [Emission.noting, Step.perform_ofStep]
      simp only [hEmit]
    · exact ⟨⟨block, packed, .error e⟩, by simp, rfl⟩
  · apply Step.ends_of_ok (a := ())
      (t := (t, offers ++ [⟨block, packed, .ok ()⟩]))
    · rw [Emission.noting, Step.perform_ofStep]
      simp only [hEmit]
    · trivial

/- A call fails only by the answer to one of its offers. -/
theorem Call.ends_noting
    (hCodec : codec.NeverFails blockSize)
    (emit : Emission σ)
    (call : Call)
    (hStocked : regrouper.Stocked codec blockSize)
    (s : σ) :
    (call.action emit.noting).Ends (regrouper, s, [])
      (fun _ after => after.1.Stocked codec blockSize)
      (fun e after =>
        after.1.Stocked codec blockSize ∧
        ∃ offer ∈ after.2.2, offer.result = .error e) := by
  have hEmit (block packed : Bytes) (noted : σ × List Offer) :
      True →
        (emit.noting block packed).Ends noted (fun _ _ => True)
          (fun e after =>
            ∃ offer ∈ after.2, offer.result = .error e) :=
    fun _ => Regrouper.ends_noting emit block packed noted
  cases call with
  | write data =>
    exact
      (ends_write hCodec hEmit data hStocked trivial).mono
        (fun _ _ hDone => hDone.1) fun _ _ hFails => hFails
  | flush =>
    exact
      (ends_flush hCodec hEmit hStocked trivial).mono
        (fun _ _ hDone => hDone.1) fun _ _ hFails => hFails

/- All errors so far have been answers. -/
structure History.Answered
    (codec : Codec)
    (blockSize : Nat)
    (history : History σ) : Prop where
  stocked : history.regrouper.Stocked codec blockSize
  entries : ∀ entry ∈ history.entries, entry.Answered

theorem History.Answered.step
    {history : History σ}
    (h : history.Answered codec blockSize)
    (hCodec : codec.NeverFails blockSize)
    (emit : Emission σ)
    (call : Call) :
    (history.step emit call).Answered codec blockSize := by
  rcases history with ⟨before, s, entries⟩
  rcases h with ⟨hStocked, hEntries⟩
  dsimp only at hStocked hEntries
  rcases hCall : (call.action emit).perform (before, s) with
    ⟨result, after, t⟩
  have hHeld : before.held.size ≤ before.blockSize := by
    rw [hStocked.blockSize_eq]
    exact hStocked.held_le
  -- The call and the one that takes notes have one result.
  rcases call.perform_noting emit hHeld hCall with
    ⟨offers, hNoting, _⟩
  have hEnds := call.ends_noting hCodec emit hStocked s
  have hStep :
      History.step emit ⟨before, s, entries⟩ call =
        ⟨after, t,
          entries ++ [.of before after call result offers]⟩ := by
    simp only [History.step, hCall, hNoting]
  have hAfter :
      after.Stocked codec blockSize ∧
        ∀ e,
          result = .error e →
            ∃ offer ∈ offers, offer.result = .error e := by
    cases result with
    | error e =>
      rcases hEnds.of_error hNoting with ⟨hNext, hAnswer⟩
      refine ⟨hNext, ?_⟩
      rintro _ ⟨⟩
      exact hAnswer
    | ok a => exact ⟨hEnds.of_ok hNoting, by simp⟩
  rw [hStep]
  refine ⟨hAfter.1, ?_⟩
  intro entry hMem
  rcases List.mem_append.mp hMem with hOld | hNew
  · exact hEntries entry hOld
  · rw [List.mem_singleton.mp hNew]
    exact hAfter.2

theorem answered_opened
    (hNew : new codec blockSize = .ok regrouper)
    (world : σ) :
    (History.opened regrouper world).Answered codec blockSize where
  stocked := stocked_of_new hNew
  entries := by
    intro entry hEntry
    cases hEntry

/- Every error of a regrouper is the answer to an offer. -/
theorem History.Answered.run
    {history : History σ}
    (h : history.Answered codec blockSize)
    (hCodec : codec.NeverFails blockSize)
    (emit : Emission σ)
    (calls : List Call) :
    (history.run emit calls).Answered codec blockSize := by
  induction calls generalizing history with
  | nil => exact h
  | cons call calls ih => exact ih (h.step hCodec emit call)

end Regrouper

------------------------------------------------------------
-- Outlets
------------------------------------------------------------

variable {ω : Type}

/- An action that no codec has a part in. -/
abbrev Step.Unrefused
    {σ α : Type}
    (action : Action σ α) : Prop :=
  action.Maintains (fun _ => True) (·.isRefusal = false)

theorem Step.unrefused_throw
    {σ α : Type}
    {e : Error}
    (h : e.isRefusal = false) :
    (throw e : Action σ α).Unrefused :=
  maintains_throw h

/- The failures of a channel are no refusals. -/
theorem Error.isRefusal_of_mapError
    {result : Except IoKind Unit}
    {e : Error}
    (h : result.mapError .io = .error e) :
    e.isRefusal = false := by
  cases result with
  | error kind =>
    cases h
    rfl
  | ok _ => cases h

/- An action that ends with the result of a channel. -/
theorem Step.unrefused_of_channel
    {σ : Type}
    {action : Action σ Unit}
    (h :
      ∀ s, ∃ result : Except IoKind Unit,
        (action.perform s).1 = result.mapError .io) :
    action.Unrefused := by
  intro s _
  rcases hAction : action.perform s with ⟨e | a, t⟩
  · rcases h s with ⟨result, hResult⟩
    rw [hAction] at hResult
    exact
      ends_of_error hAction
        ⟨trivial, Error.isRefusal_of_mapError hResult.symm⟩
  · exact ends_of_ok hAction trivial

namespace Capture

theorem unrefused_flush :
    (flush : Action (Capture ω × ω) Unit).Unrefused := by
  apply Step.unrefused_of_channel
  rintro ⟨capture, world⟩
  rw [flush, Step.perform_ofStep]
  dsimp only
  split
  · rename_i kind _
    exact ⟨.error kind, rfl⟩
  · exact ⟨_, rfl⟩

theorem unrefused_record
    (offset : Nat) :
    (record offset : Action (Capture ω × ω) Unit).Unrefused := by
  apply Step.maintains_get.bind
  rintro ⟨capture, _⟩
  have hNote :
      (modify fun pair : Capture ω × ω =>
        (pair.1.noted offset, pair.2) :
        Action (Capture ω × ω) PUnit).Unrefused :=
    Step.maintains_modify fun _ _ => trivial
  have hRest :
      (if batchEntries * FrameIndex.entrySize ≤
          capture.batch.size then
        flush >>= fun _ =>
          modify fun pair => (pair.1.noted offset, pair.2)
      else
        modify fun pair => (pair.1.noted offset, pair.2) :
        Action (Capture ω × ω) PUnit).Unrefused :=
    .ite (unrefused_flush.bind fun _ => hNote) hNote
  cases hLast : capture.last with
  | none =>
    simp only [hLast]
    exact hRest
  | some previous =>
    simp only [hLast]
    apply Step.Maintains.ite _ hRest
    exact (Step.unrefused_throw rfl).bind fun _ => hRest

end Capture

namespace Outlet

theorem unrefused_put
    (bs : Bytes) :
    (put bs : Action (Outlet ω × ω) Unit).Unrefused :=
  Step.unrefused_of_channel fun _ => ⟨_, rfl⟩

theorem unrefused_putAll
    (pieces : List Bytes) :
    (putAll pieces : Action (Outlet ω × ω) Unit).Unrefused := by
  induction pieces with
  | nil => exact Step.maintains_pure ()
  | cons piece rest ih => exact (unrefused_put piece).bind fun _ => ih

theorem unrefused_putHeader
    (header : Header) :
    (putHeader header : Action (Outlet ω × ω) Nat).Unrefused := by
  have hPut :
      (putAll header.pieces >>= fun _ =>
        pure header.writtenLength :
        Action (Outlet ω × ω) Nat).Unrefused :=
    (unrefused_putAll header.pieces).bind fun _ =>
      Step.maintains_pure _
  apply Step.Maintains.ite _ hPut
  exact (Step.unrefused_throw rfl).bind fun _ => hPut

theorem unrefused_onCapture
    {action : Action (Capture ω × ω) Unit}
    (h : action.Unrefused) :
    (onCapture action).Unrefused := by
  rintro ⟨⟨channel, written, capture, frames⟩, world⟩ _
  cases capture with
  | none => exact Step.ends_of_ok rfl trivial
  | some capture =>
    have hAction := h (capture, world) trivial
    rcases hPerform : action.perform (capture, world) with
      ⟨e | a, next, after⟩
    · apply Step.ends_of_error (e := e)
        (t := (⟨channel, written, some next, frames⟩, after))
      · simp only [onCapture, Step.perform_ofStep, hPerform]
      · exact ⟨trivial, (hAction.of_error hPerform).2⟩
    · apply Step.ends_of_ok (a := a)
        (t := (⟨channel, written, some next, frames⟩, after))
      · simp only [onCapture, Step.perform_ofStep, hPerform]
      · trivial

theorem unrefused_emit
    (layout : Bytes → Bytes → List Bytes)
    (block packed : Bytes) :
    (emit layout block packed :
      Action (Outlet ω × ω) Unit).Unrefused := by
  apply Step.maintains_get.bind
  rintro ⟨outlet, _⟩
  apply (unrefused_onCapture
    (Capture.unrefused_record outlet.written)).bind
  intro _
  apply (unrefused_putAll (layout block packed)).bind
  intro _
  exact Step.maintains_modify fun _ _ => trivial

theorem unrefused_flushChannel :
    (flushChannel : Action (Outlet ω × ω) Unit).Unrefused :=
  Step.unrefused_of_channel fun _ => ⟨_, rfl⟩

theorem unrefused_flush :
    (flush : Action (Outlet ω × ω) Unit).Unrefused :=
  (unrefused_onCapture Capture.unrefused_flush).bind fun _ =>
    unrefused_flushChannel

end Outlet

------------------------------------------------------------
-- Writers
------------------------------------------------------------

namespace Regrouper

variable
  {codec : Codec} {blockSize : Nat} {emit : Emission (Outlet ω × ω)}

/- The regrouper of a writer has its codec and its size. -/
abbrev Unrefused
    {σ α : Type}
    (codec : Codec)
    (blockSize : Nat)
    (action : Action (Regrouper × σ) α) : Prop :=
  action.Maintains
    (fun state => state.1.Stocked codec blockSize)
    (·.isRefusal = false)

theorem unrefused_write
    (hCodec : codec.NeverFails blockSize)
    (hEmit : ∀ block packed, (emit block packed).Unrefused)
    (data : Bytes) :
    Unrefused codec blockSize (write emit data) := by
  rintro ⟨regrouper, s⟩ hStocked
  exact
    (ends_write hCodec hEmit data hStocked trivial).mono
      (fun _ _ hDone => hDone.1)
      fun _ _ hFails => ⟨hFails.1, hFails.2.2⟩

theorem unrefused_flush
    (hCodec : codec.NeverFails blockSize)
    (hEmit : ∀ block packed, (emit block packed).Unrefused) :
    Unrefused codec blockSize (flush emit) := by
  rintro ⟨regrouper, s⟩ hStocked
  exact
    (ends_flush hCodec hEmit hStocked trivial).mono
      (fun _ _ hDone => hDone.1)
      fun _ _ hFails => ⟨hFails.1, hFails.2.2⟩

theorem Stocked.reset
    {regrouper : Regrouper}
    (h : regrouper.Stocked codec blockSize) :
    regrouper.reset.Stocked codec blockSize :=
  h.emptied

end Regrouper

namespace FrameWriter

/- The action fails by no refusal, and keeps the regrouper. -/
abbrev Unrefused
    {W : Type → Type}
    {α : Type}
    [FrameWriter W]
    (codec : Codec)
    (blockSize : Nat)
    (action : Action (W ω × ω) α) : Prop :=
  action.Maintains
    (fun state => (regrouper state.1).Stocked codec blockSize)
    (·.isRefusal = false)

/- The actions of a writer, none of which is refused. -/
structure Unrefusing
    (W : Type → Type)
    [FrameWriter W]
    (ω : Type)
    (codec : Codec)
    (blockSize : Nat) : Prop where
  attach :
    ∀ {writer attached : W ω} {channel},
      FrameWriter.attach writer channel = .ok attached →
        regrouper attached = regrouper writer
  write :
    ∀ data,
      Unrefused codec blockSize
        (FrameWriter.write data : Action (W ω × ω) Unit)
  flush :
    Unrefused codec blockSize
      (FrameWriter.flush : Action (W ω × ω) Unit)
  finish :
    Unrefused codec blockSize
      (FrameWriter.finish : Action (W ω × ω) Nat)
  reset :
    Unrefused codec blockSize
      (FrameWriter.reset : Action (W ω × ω) Unit)
  close :
    Unrefused codec blockSize
      (FrameWriter.close : Action (W ω × ω) Unit)

variable
  {W : Type → Type} [FrameWriter W] {codec : Codec}
  {blockSize : Nat}

/- No call is refused. -/
theorem Unrefusing.call
    (h : Unrefusing W ω codec blockSize)
    (call : Call) :
    Unrefused codec blockSize
      (call.action : Action (W ω × ω) Unit) := by
  cases call with
  | write data => exact h.write data
  | writeRange buffer offset length =>
    apply Step.Maintains.bind _ fun _ => h.write _
    apply Step.maintains_ofExcept
    intro e hRange
    unfold checkRange at hRange
    split at hRange
    · cases hRange
    · cases hRange
      rfl
  | flush => exact h.flush
  | finish =>
    exact h.finish.bind fun _ => Step.maintains_pure ()
  | reset => exact h.reset

/- No last call is refused. -/
theorem Unrefusing.ending
    (h : Unrefusing W ω codec blockSize)
    (ending : Ending) :
    Unrefused codec blockSize
      (ending.action : Action (W ω × ω) Unit) := by
  cases ending with
  | finish => exact h.call .finish
  | close => exact h.close

end FrameWriter

namespace RawWriter

variable {α : Type} {codec : Codec} {blockSize : Nat}

theorem unrefused_onOutlet
    {action : Action (Outlet ω × ω) α}
    (h : action.Unrefused) :
    FrameWriter.Unrefused codec blockSize (onOutlet action) :=
  h.within (fun _ _ => trivial) fun _ _ hStocked _ => hStocked

theorem unrefused_onRegrouper
    {action : Action (Regrouper × Outlet ω × ω) α}
    (h : Regrouper.Unrefused codec blockSize action) :
    FrameWriter.Unrefused codec blockSize (onRegrouper action) :=
  h.within (fun _ hStocked => hStocked)
    fun _ _ _ hStocked => hStocked

theorem unrefused_flush
    (hCodec : codec.NeverFails blockSize) :
    FrameWriter.Unrefused codec blockSize
      (flush : Action (RawWriter ω × ω) Unit) :=
  (unrefused_onRegrouper
    (Regrouper.unrefused_flush hCodec
      (Outlet.unrefused_emit _))).bind fun _ =>
    unrefused_onOutlet Outlet.unrefused_flush

theorem unrefused_finish
    (hCodec : codec.NeverFails blockSize) :
    FrameWriter.Unrefused codec blockSize
      (finish : Action (RawWriter ω × ω) Nat) :=
  (unrefused_flush hCodec).bind fun _ =>
    Step.maintains_get.bind fun _ => Step.maintains_pure _

theorem stocked_of_new
    {channel : Channel ω}
    {writer : RawWriter ω}
    (hNew : new channel codec blockSize = .ok writer) :
    writer.regrouper.Stocked codec blockSize := by
  rcases regrouper_of_new hNew with ⟨regrouper, hRegrouper, rfl⟩
  exact Regrouper.stocked_of_new hRegrouper

/- A writer of raw streams fails by no refusal. -/
theorem unrefusing
    (ω : Type)
    (hCodec : codec.NeverFails blockSize) :
    FrameWriter.Unrefusing RawWriter ω codec blockSize where
  attach := by
    intro writer attached channel hAttach
    rcases outlet_of_attach hAttach with ⟨outlet, _, rfl⟩
    rfl
  write := fun data =>
    unrefused_onRegrouper
      (Regrouper.unrefused_write hCodec
        (Outlet.unrefused_emit _) data)
  flush := unrefused_flush hCodec
  finish := unrefused_finish hCodec
  reset := Step.maintains_modify fun _ hStocked => hStocked.reset
  close :=
    (unrefused_finish hCodec).bind fun _ =>
      unrefused_onOutlet
        (Outlet.unrefused_onCapture Capture.unrefused_flush)

end RawWriter

namespace ContainerWriter

variable {α : Type} {codec : Codec} {blockSize : Nat}

theorem unrefused_onOutlet
    {action : Action (Outlet ω × ω) α}
    (h : action.Unrefused) :
    FrameWriter.Unrefused codec blockSize (onOutlet action) :=
  h.within (fun _ _ => trivial) fun _ _ hStocked _ => hStocked

theorem unrefused_onRegrouper
    {action : Action (Regrouper × Outlet ω × ω) α}
    (h : Regrouper.Unrefused codec blockSize action) :
    FrameWriter.Unrefused codec blockSize (onRegrouper action) :=
  h.within (fun _ hStocked => hStocked)
    fun _ _ _ hStocked => hStocked

theorem unrefused_current_bind
    {next : ContainerWriter ω → Action (ContainerWriter ω × ω) α}
    (hNext :
      ∀ writer, FrameWriter.Unrefused codec blockSize (next writer)) :
    FrameWriter.Unrefused codec blockSize (current >>= next) :=
  (Step.maintains_get.bind fun _ => Step.maintains_pure _).bind
    hNext

theorem unrefused_enter
    (stage : MemberStage) :
    FrameWriter.Unrefused codec blockSize
      (enter stage : Action (ContainerWriter ω × ω) Unit) :=
  Step.maintains_modify fun _ hStocked => hStocked

theorem unrefused_openMember :
    FrameWriter.Unrefused codec blockSize
      (openMember : Action (ContainerWriter ω × ω) Unit) := by
  apply unrefused_current_bind
  intro writer
  apply Step.Maintains.ite _ (Step.maintains_pure ())
  exact
    (unrefused_onOutlet
      (Outlet.unrefused_putHeader writer.header)).bind fun _ =>
      unrefused_enter .opened

theorem unrefused_write
    (hCodec : codec.NeverFails blockSize)
    (data : Bytes) :
    FrameWriter.Unrefused codec blockSize
      (write data : Action (ContainerWriter ω × ω) Unit) := by
  apply unrefused_current_bind
  intro writer
  have hRegroup :
      FrameWriter.Unrefused codec blockSize
        (onRegrouper (Regrouper.write writer.emission data) :
          Action (ContainerWriter ω × ω) Unit) :=
    unrefused_onRegrouper
      (Regrouper.unrefused_write hCodec
        (Outlet.unrefused_emit _) data)
  have hTake :
      FrameWriter.Unrefused codec blockSize
        (if !data.isEmpty then
          openMember >>= fun _ =>
            onRegrouper (Regrouper.write writer.emission data)
        else
          pure () :
          Action (ContainerWriter ω × ω) Unit) :=
    .ite (unrefused_openMember.bind fun _ => hRegroup)
      (Step.maintains_pure ())
  apply Step.Maintains.ite _ hTake
  apply Step.Maintains.bind _ fun _ => hTake
  exact Step.maintains_throw rfl

theorem unrefused_flushFrames
    (hCodec : codec.NeverFails blockSize) :
    FrameWriter.Unrefused codec blockSize
      (flushFrames : Action (ContainerWriter ω × ω) Unit) := by
  apply unrefused_current_bind
  intro writer
  apply Step.Maintains.ite _ (Step.maintains_pure ())
  apply unrefused_openMember.bind
  intro _
  exact
    unrefused_onRegrouper
      (Regrouper.unrefused_flush hCodec (Outlet.unrefused_emit _))

theorem unrefused_finish
    (hCodec : codec.NeverFails blockSize) :
    FrameWriter.Unrefused codec blockSize
      (finish : Action (ContainerWriter ω × ω) Nat) := by
  apply unrefused_current_bind
  intro writer
  apply Step.Maintains.ite (Step.maintains_pure _)
  apply unrefused_openMember.bind
  intro _
  apply (unrefused_flushFrames hCodec).bind
  intro _
  apply (unrefused_onOutlet
    (Outlet.unrefused_put Frame.terminator)).bind
  intro _
  apply (unrefused_onOutlet Outlet.unrefused_flush).bind
  intro _
  apply (unrefused_enter .finished).bind
  intro _
  exact unrefused_current_bind fun _ => Step.maintains_pure _

theorem unrefused_close
    (hCodec : codec.NeverFails blockSize) :
    FrameWriter.Unrefused codec blockSize
      (close : Action (ContainerWriter ω × ω) Unit) := by
  have hLast :
      FrameWriter.Unrefused codec blockSize
        (onOutlet (Outlet.onCapture Capture.flush) >>= fun _ =>
          onOutlet Outlet.flushChannel :
          Action (ContainerWriter ω × ω) Unit) :=
    (unrefused_onOutlet
      (Outlet.unrefused_onCapture Capture.unrefused_flush)).bind
      fun _ => unrefused_onOutlet Outlet.unrefused_flushChannel
  apply unrefused_current_bind
  intro writer
  apply Step.Maintains.ite _ hLast
  exact (unrefused_finish hCodec).bind fun _ => hLast

theorem stocked_of_new
    {channel : Channel ω}
    {options : WriterOptions}
    {clock : UInt32}
    {writer : ContainerWriter ω}
    {world next : ω}
    (hNew :
      (new channel codec options clock).perform world =
        (.ok writer, next)) :
    writer.regrouper.Stocked codec options.blockSize := by
  rcases parts_of_new hNew with ⟨_, _, hRegrouper, _, _⟩
  exact Regrouper.stocked_of_new hRegrouper

/- A writer of containers fails by no refusal. -/
theorem unrefusing
    (ω : Type)
    (hCodec : codec.NeverFails blockSize) :
    FrameWriter.Unrefusing ContainerWriter ω codec blockSize where
  attach := by
    intro writer attached channel hAttach
    rcases outlet_of_attach hAttach with ⟨outlet, _, rfl⟩
    rfl
  write := unrefused_write hCodec
  flush :=
    (unrefused_flushFrames hCodec).bind fun _ =>
      unrefused_onOutlet Outlet.unrefused_flush
  finish := unrefused_finish hCodec
  reset := Step.maintains_modify fun _ hStocked => hStocked.reset
  close := unrefused_close hCodec

end ContainerWriter

------------------------------------------------------------
-- Courses
------------------------------------------------------------

namespace Course

variable
  {W : Type → Type} [FrameWriter W] {codec : Codec}
  {blockSize : Nat} {course : Course W ω}

/- No call has failed by a refusal. -/
structure Unrefused
    (codec : Codec)
    (blockSize : Nat)
    (course : Course W ω) : Prop where
  stocked :
    (FrameWriter.regrouper course.writer).Stocked codec blockSize
  log :
    ∀ entry ∈ course.log,
      ∀ e, entry.2 = .error e → e.isRefusal = false

theorem unrefused_opened
    {writer : W ω}
    (hStocked :
      (FrameWriter.regrouper writer).Stocked codec blockSize)
    (world : ω) :
    (opened writer world).Unrefused codec blockSize where
  stocked := hStocked
  log := by
    intro entry hEntry
    cases hEntry

theorem Unrefused.step
    (h : course.Unrefused codec blockSize)
    (hWriter : FrameWriter.Unrefusing W ω codec blockSize)
    (call : Call) :
    (course.step call).Unrefused codec blockSize := by
  have hEnds :=
    hWriter.call call (course.writer, course.world) h.stocked
  rcases hCall :
    call.action.perform (course.writer, course.world) with
    ⟨result, writer, world⟩
  have hAfter :
      (FrameWriter.regrouper writer).Stocked codec blockSize ∧
        ∀ e, result = .error e → e.isRefusal = false := by
    cases result with
    | error e =>
      rcases hEnds.of_error hCall with ⟨hStocked, hAllowed⟩
      refine ⟨hStocked, ?_⟩
      rintro _ ⟨⟩
      exact hAllowed
    | ok a => exact ⟨hEnds.of_ok hCall, by simp⟩
  rw [step_eq hCall]
  refine ⟨hAfter.1, ?_⟩
  intro entry hMem
  rcases List.mem_append.mp hMem with hOld | hNew
  · exact h.log entry hOld
  · rw [List.mem_singleton.mp hNew]
    exact hAfter.2

theorem Unrefused.run
    (h : course.Unrefused codec blockSize)
    (hWriter : FrameWriter.Unrefusing W ω codec blockSize)
    (calls : List Call) :
    (course.run calls).Unrefused codec blockSize :=
  run_of_step (fun _ hCourse => hCourse.step hWriter) course
    calls h

theorem Unrefused.attach
    {attached : Course W ω}
    {channel : Channel ω}
    (h : course.Unrefused codec blockSize)
    (hWriter : FrameWriter.Unrefusing W ω codec blockSize)
    (hAttach : course.attach channel = .ok attached) :
    attached.Unrefused codec blockSize := by
  rcases writer_of_attach hAttach with ⟨writer, hNext, rfl⟩
  exact ⟨hWriter.attach hNext ▸ h.stocked, h.log⟩

/- Nor does the last call fail by one. -/
theorem Unrefused.conclude
    {ending : Ending}
    {e : Error}
    (h : course.Unrefused codec blockSize)
    (hWriter : FrameWriter.Unrefusing W ω codec blockSize)
    (hConclude : course.conclude ending = .error e) :
    e.isRefusal = false := by
  have hEnds :=
    hWriter.ending ending (course.writer, course.world) h.stocked
  unfold Course.conclude at hConclude
  split at hConclude
  · rename_i hLast
    cases hConclude
    exact (hEnds.of_error hLast).2
  · cases hConclude

end Course

end SplitStream
