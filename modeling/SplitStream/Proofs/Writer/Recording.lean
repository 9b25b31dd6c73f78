import Mathlib
import SplitStream.Proofs.FrameIndex.Searches
import SplitStream.Proofs.Writer.Truthful

/-
  Captures whose channel fails. Offsets are recorded and
  flushed in any order, while writes are refused and flushes
  fail. What the channel holds and what waits in the batch
  are always the layout of the offsets that were recorded:
  a batch leaves the capture only once it has been taken.

  Main declarations:
    * `Channel.TakesWhole`
    * `Channel.TakesWhole.deliver`
    * `Capture.Stores`
    * `Capture.Stores.flush`
    * `Capture.Stores.record`
    * `Capture.Call`
    * `Capture.History`
    * `Capture.History.Upholds.run`
    * `Capture.History.Captures`
    * `Capture.index_of_run`
-/

------------------------------------------------------------
-- Writes As A Whole
------------------------------------------------------------

namespace SplitStream

namespace Channel

variable {ω : Type}

/-
  A write takes all of its bytes or none of them. A flush may
  fail, but changes none of the bytes that were taken.
-/
structure TakesWhole
    (channel : Channel ω)
    (Holds : ω → Bytes → Prop) : Prop where
  write :
    ∀ (world : ω) (held bs : Bytes),
      Holds world held →
      bs ≠ [] →
        (∃ next,
          channel.write bs world = (.ok bs.length, next) ∧
          Holds next (held ++ bs)) ∨
        ∃ answer next,
          channel.write bs world = (answer, next) ∧
          missed answer = true ∧
          Holds next held
  flush :
    ∀ (world : ω) (held : Bytes),
      Holds world held →
        Holds (channel.flush world).2 held

variable {channel : Channel ω} {Holds : ω → Bytes → Prop}

/- One write settles a delivery, whatever its answer. -/
theorem TakesWhole.deliver
    (hWhole : channel.TakesWhole Holds)
    (bs : Bytes)
    {world : ω}
    {held : Bytes}
    (hHolds : Holds world held) :
    (∃ next,
      channel.deliver bs world = ⟨.ok (), bs.length, next⟩ ∧
      Holds next (held ++ bs)) ∨
    ∃ kind next,
      channel.deliver bs world = ⟨.error kind, 0, next⟩ ∧
      Holds next held := by
  cases bs with
  | nil =>
    left
    refine ⟨world, ?_, by simpa using hHolds⟩
    rw [Channel.deliver, deliverFrom]
    rfl
  | cons b rest =>
    rw [Channel.deliver, deliverFrom]
    rcases hWhole.write world held (b :: rest) hHolds (by simp)
      with ⟨next, hWrite, hNext⟩ |
        ⟨answer, next, hWrite, hMissed, hNext⟩
    · left
      refine ⟨next, ?_, hNext⟩
      rw [hWrite, List.length_cons]
      dsimp only
      rw [List.drop_length, deliverFrom, Nat.zero_add]
    · right
      rw [hWrite]
      cases answer with
      | error kind => exact ⟨kind, next, rfl, hNext⟩
      | ok n =>
        have hZero : n = 0 := eq_of_beq hMissed
        rw [hZero]
        exact ⟨.writeZero, next, rfl, hNext⟩

end Channel

/- An answer to a write takes all that is offered or nothing. -/
def Conduct.TakesWhole
    (conduct : Conduct) : Prop :=
  ∀ turn size offered, 0 < offered →
    conduct.write turn size offered = ⟨offered, none⟩ ∨
      (conduct.write turn size offered).taken = 0

theorem Sink.takesWhole_channel
    {conduct : Conduct}
    (hWhole : conduct.TakesWhole) :
    channel.TakesWhole (Sink.Holds conduct) where
  write := by
    intro sink held bs hHolds hSome
    have hAnswer :=
      hWhole sink.turn sink.received.size bs.length
        (List.length_pos_iff.mpr hSome)
    rw [← hHolds.conduct] at hAnswer
    simp only [channel, Sink.write]
    rcases hAnswer with hAll | hNone
    · left
      simp only [hAll, List.take_length]
      exact ⟨_, rfl, hHolds.append bs⟩
    · right
      simp only [hNone, List.take_zero]
      have hNothing := hHolds.append []
      rw [List.append_nil] at hNothing
      cases (sink.conduct.write sink.turn sink.received.size
        bs.length).failure with
      | none => exact ⟨.ok 0, _, rfl, rfl, hNothing⟩
      | some kind => exact ⟨.error kind, _, rfl, rfl, hNothing⟩
  flush := fun _ _ hHolds => hHolds.flush

------------------------------------------------------------
-- Stored And Waiting Offsets
------------------------------------------------------------

namespace Capture

open FrameIndex

variable
  {ω : Type} {channel : Channel ω} {Holds : ω → Bytes → Prop}
  {held : Bytes} {capture : Capture ω} {world : ω}
  {stored waiting : List Nat}

/-
  Offsets have been recorded in order. The channel has taken
  the first ones, behind what it held before, and the others
  wait in a batch that is not overfull.
-/
structure Stores
    (channel : Channel ω)
    (Holds : ω → Bytes → Prop)
    (held : Bytes)
    (capture : Capture ω)
    (world : ω)
    (stored waiting : List Nat) : Prop where
  records :
    capture.Records channel (stored.flatMap encodeOffset)
      (stored ++ waiting)
  holds : Holds world (held ++ stored.flatMap encodeOffset)
  room : waiting.length ≤ batchEntries
  increasing : (stored ++ waiting).Pairwise (· < ·)

theorem stores_new
    (channel : Channel ω)
    (hHolds : Holds world held) :
    Stores channel Holds held (.new channel) world [] [] where
  records := ⟨rfl, rfl, rfl, rfl⟩
  holds := by simpa using hHolds
  room := Nat.zero_le _
  increasing := .nil

theorem Stores.batch
    (h : Stores channel Holds held capture world stored waiting) :
    capture.batch.toBytes = waiting.flatMap encodeOffset := by
  have hLayout := h.records.layout
  rw [List.flatMap_append] at hLayout
  exact List.append_cancel_left hLayout

theorem Stores.size
    (h : Stores channel Holds held capture world stored waiting) :
    capture.batch.size = waiting.length * entrySize := by
  rw [Tape.size_eq_length, h.batch, length_flatMap_encodeOffset]

/- The batch has left the capture once it has been taken. -/
theorem Stores.emptied
    (h : Stores channel Holds held capture world stored waiting)
    {next : ω}
    (hHolds :
      Holds next
        (held ++ (stored ++ waiting).flatMap encodeOffset)) :
    Stores channel Holds held { capture with batch := .empty }
      next (stored ++ waiting) [] where
  records := by
    have hRecords := h.records.emptied
    rw [h.batch, ← List.flatMap_append] at hRecords
    rw [List.append_nil]
    exact hRecords
  holds := hHolds
  room := Nat.zero_le _
  increasing := by
    rw [List.append_nil]
    exact h.increasing

/- An offset behind all others joins a batch with room. -/
theorem Stores.noted
    (h : Stores channel Holds held capture world stored waiting)
    {offset : Nat}
    (hOrder : ∀ previous ∈ capture.last, previous < offset)
    (hRoom : waiting.length < batchEntries) :
    Stores channel Holds held (capture.noted offset) world stored
      (waiting ++ [offset]) where
  records := by
    rw [← List.append_assoc]
    exact h.records.noted offset
  holds := h.holds
  room := by
    rw [List.length_append]
    exact hRoom
  increasing := by
    rw [← List.append_assoc]
    apply (pairwise_push_iff ⟨_, h.increasing⟩ offset).mpr
    intro previous hLast
    exact hOrder previous (h.records.last.trans hLast)

/- A flush stores all that waits, or leaves it waiting. -/
theorem Stores.flush
    (h : Stores channel Holds held capture world stored waiting)
    (hWhole : channel.TakesWhole Holds)
    {result : Except Error Unit}
    {flushed : Capture ω}
    {next : ω}
    (hFlush :
      Capture.flush.perform (capture, world) =
        (result, flushed, next)) :
    ∃ stored' waiting',
      stored' ++ waiting' = stored ++ waiting ∧
      Stores channel Holds held flushed next stored' waiting' ∧
      flushed.last = capture.last ∧
      (result = .ok () → waiting' = []) := by
  obtain rfl := h.records.channel
  rcases hWhole.deliver capture.batch.toBytes h.holds with
    ⟨middle, hBatch, hMiddle⟩ |
      ⟨kind, middle, hBatch, hMiddle⟩
  · -- The batch is gone, whatever the flush behind it answers.
    have hTaken := hWhole.flush middle _ hMiddle
    rw [List.append_assoc, h.batch, ← List.flatMap_append]
      at hTaken
    simp only [Capture.flush, Step.perform_ofStep, hBatch]
      at hFlush
    cases hFlush
    exact
      ⟨stored ++ waiting, [], List.append_nil _,
        h.emptied hTaken, rfl, fun _ => rfl⟩
  · simp only [Capture.flush, Step.perform_ofStep, hBatch]
      at hFlush
    cases hFlush
    refine
      ⟨stored, waiting, rfl, { h with holds := hMiddle }, rfl, ?_⟩
    intro hOk
    cases hOk

------------------------------------------------------------
-- Calls
------------------------------------------------------------

/- The calls that capture an index. -/
inductive Call where
  | record (offset : Nat)
  | flush
  deriving DecidableEq

namespace Call

/- What a call does. -/
def action : Call → Action (Capture ω × ω) Unit
  | record offset => Capture.record offset
  | flush => Capture.flush

/- The offsets that a call with some result has recorded. -/
def recorded : Call → Except Error Unit → List Nat
  | record offset, .ok () => [offset]
  | _, _ => []

end Call

/-
  A full batch is flushed before an offset joins it, and the
  offset is recorded if nothing fails.
-/
theorem Stores.record
    (h : Stores channel Holds held capture world stored waiting)
    (hWhole : channel.TakesWhole Holds)
    {offset : Nat}
    {result : Except Error Unit}
    {after : Capture ω}
    {next : ω}
    (hRecord :
      (Capture.record offset).perform (capture, world) =
        (result, after, next)) :
    ∃ stored' waiting',
      stored' ++ waiting' =
        stored ++ waiting ++ (Call.record offset).recorded result ∧
      Stores channel Holds held after next stored' waiting' := by
  rcases record_cases capture offset with
    hOrder | ⟨previous, _, _, hRefused⟩
  · rw [perform_record hOrder] at hRecord
    split at hRecord
    · cases hFlush : Capture.flush.perform (capture, world) with
      | mk outcome state =>
        rcases state with ⟨flushed, middle⟩
        rcases h.flush hWhole hFlush with
          ⟨stored', waiting', hAll, hFlushed, hLast, hNone⟩
        cases outcome with
        | error e =>
          -- The batch may have been taken before the failure.
          rw [Step.perform_bind_of_error hFlush] at hRecord
          cases hRecord
          exact
            ⟨stored', waiting', by simp [Call.recorded, hAll],
              hFlushed⟩
        | ok _ =>
          rw [Step.perform_bind_of_ok hFlush] at hRecord
          cases hRecord
          cases hNone rfl
          rw [← hLast] at hOrder
          refine
            ⟨stored', [] ++ [offset], ?_,
              hFlushed.noted hOrder (by decide)⟩
          rw [← hAll]
          simp [Call.recorded]
    · rename_i hRoom
      rw [h.size] at hRoom
      cases hRecord
      refine
        ⟨stored, waiting ++ [offset], by simp [Call.recorded],
          h.noted hOrder ?_⟩
      exact Nat.lt_of_mul_lt_mul_right (Nat.lt_of_not_le hRoom)
  · rw [hRefused world] at hRecord
    cases hRecord
    exact ⟨stored, waiting, by simp [Call.recorded], h⟩

theorem Stores.call
    (h : Stores channel Holds held capture world stored waiting)
    (hWhole : channel.TakesWhole Holds)
    (call : Call)
    {result : Except Error Unit}
    {after : Capture ω}
    {next : ω}
    (hCall :
      call.action.perform (capture, world) =
        (result, after, next)) :
    ∃ stored' waiting',
      stored' ++ waiting' =
        stored ++ waiting ++ call.recorded result ∧
      Stores channel Holds held after next stored' waiting' := by
  cases call with
  | record offset => exact h.record hWhole hCall
  | flush =>
    rcases h.flush hWhole hCall with
      ⟨stored', waiting', hAll, hFlushed, _⟩
    exact
      ⟨stored', waiting', by simp [Call.recorded, hAll], hFlushed⟩

------------------------------------------------------------
-- Runs Of Calls
------------------------------------------------------------

/- A capture, its world, and the calls made with their results. -/
structure History
    (ω : Type) where
  capture : Capture ω
  world : ω
  made : List (Call × Except Error Unit)

namespace History

/- No call has been made yet. -/
def opened
    (channel : Channel ω)
    (world : ω) : History ω where
  capture := .new channel
  world := world
  made := []

/- Make one call, which may fail. -/
def step
    (history : History ω)
    (call : Call) : History ω :=
  let (result, after, world) :=
    call.action.perform (history.capture, history.world)
  { capture := after
    world := world
    made := history.made ++ [(call, result)] }

/- Make one call after another. -/
def run
    (history : History ω)
    (calls : List Call) : History ω :=
  calls.foldl step history

/- The offsets whose record succeeded, in order. -/
def recorded
    (history : History ω) : List Nat :=
  history.made.flatMap fun (call, result) => call.recorded result

/- The recorded offsets are stored or wait. -/
def Upholds
    (channel : Channel ω)
    (Holds : ω → Bytes → Prop)
    (held : Bytes)
    (history : History ω) : Prop :=
  ∃ stored waiting,
    stored ++ waiting = history.recorded ∧
    Stores channel Holds held history.capture history.world
      stored waiting

theorem Upholds.step
    {history : History ω}
    (h : history.Upholds channel Holds held)
    (hWhole : channel.TakesWhole Holds)
    (call : Call) :
    (history.step call).Upholds channel Holds held := by
  rcases h with ⟨stored, waiting, hAll, hStores⟩
  cases hCall :
      call.action.perform (history.capture, history.world) with
  | mk result state =>
    rcases state with ⟨after, next⟩
    rcases hStores.call hWhole call hCall with
      ⟨stored', waiting', hMore, hAfter⟩
    have hStep :
        history.step call =
          ⟨after, next, history.made ++ [(call, result)]⟩ := by
      simp only [History.step, hCall]
    rw [hStep]
    refine ⟨stored', waiting', ?_, hAfter⟩
    rw [hMore, hAll]
    simp [recorded]

theorem Upholds.run
    {history : History ω}
    (h : history.Upholds channel Holds held)
    (hWhole : channel.TakesWhole Holds)
    (calls : List Call) :
    (history.run calls).Upholds channel Holds held := by
  induction calls generalizing history with
  | nil => exact h
  | cons call calls ih => exact ih (h.step hWhole call)

/-
  An index has been captured. The bytes that the channel has
  taken and those that wait are its layout; the latter are
  whole entries, no more than a batch of them. An offset that
  is not behind all others is refused, and any other one is
  recorded unless a full batch cannot be flushed before.
-/
structure Captures
    (history : History ω)
    (Holds : ω → Bytes → Prop)
    (held : Bytes)
    (index : FrameIndex)
    (taken : Bytes) : Prop where
  offsets : index.offsets = history.recorded
  increasing : history.recorded.Pairwise (· < ·)
  entries : history.capture.entries = history.recorded.length
  holds : Holds history.world (held ++ taken)
  layout :
    taken ++ history.capture.batch.toBytes = index.toBytes
  waiting :
    ∃ waiting,
      waiting <:+ history.recorded ∧
      waiting.length ≤ batchEntries ∧
      history.capture.batch.toBytes =
        waiting.flatMap encodeOffset
  refuses :
    ∀ offset previous,
      history.recorded.getLast? = some previous →
      offset ≤ previous →
        history.step (.record offset) =
          { history with
            made :=
              history.made ++
                [(.record offset,
                  .error (.unorderedIndex previous offset))] }
  records :
    ∀ offset,
      (∀ previous ∈ history.recorded, previous < offset) →
        ((Call.record offset).action.perform
          (history.capture, history.world)).1 =
          if history.capture.batch.size <
              batchEntries * entrySize then
            .ok ()
          else
            (Call.flush.action.perform
              (history.capture, history.world)).1

/- An offset that is not behind all others changes nothing. -/
theorem step_record_of_le
    {history : History ω}
    {offset previous : Nat}
    (hLast : history.capture.last = some previous)
    (hLe : offset ≤ previous) :
    history.step (.record offset) =
      { history with
        made :=
          history.made ++
            [(.record offset,
              .error (.unorderedIndex previous offset))] } := by
  rcases record_cases history.capture offset with
    hOrder | ⟨other, hOther, _, hRefused⟩
  · exact absurd (hOrder previous hLast) (Nat.not_lt.mpr hLe)
  · cases hLast.symm.trans hOther
    simp only [step, Call.action, hRefused]

end History

/- Only the flush of a full batch can keep an offset out. -/
theorem perform_record_of_order
    {offset : Nat}
    (hOrder : ∀ previous ∈ capture.last, previous < offset) :
    ((Capture.record offset).perform (capture, world)).1 =
      if capture.batch.size < batchEntries * entrySize then
        .ok ()
      else
        (Capture.flush.perform (capture, world)).1 := by
  rw [perform_record hOrder]
  by_cases hRoom : capture.batch.size < batchEntries * entrySize
  · rw [if_neg (Nat.not_le.mpr hRoom), if_pos hRoom]
    rfl
  · rw [if_pos (Nat.le_of_not_lt hRoom), if_neg hRoom]
    cases hFlush : Capture.flush.perform (capture, world) with
    | mk result state =>
      cases result with
      | error e => rw [Step.perform_bind_of_error hFlush]
      | ok _ =>
        rw [Step.perform_bind_of_ok hFlush]
        rfl

theorem History.Upholds.captures
    {history : History ω}
    (h : history.Upholds channel Holds held) :
    ∃ index taken, history.Captures Holds held index taken := by
  rcases h with ⟨stored, waiting, hAll, hStores⟩
  have hRecords := hStores.records
  have hIncreasing := hStores.increasing
  rw [hAll] at hRecords hIncreasing
  refine
    ⟨⟨history.recorded, hIncreasing⟩,
      stored.flatMap encodeOffset, ?_⟩
  exact
    { offsets := rfl
      increasing := hIncreasing
      entries := hRecords.entries
      holds := hStores.holds
      layout := hRecords.layout
      waiting :=
        ⟨waiting, ⟨stored, hAll⟩, hStores.room, hStores.batch⟩
      refuses := by
        intro offset previous hLast hLe
        exact
          history.step_record_of_le (hRecords.last.trans hLast) hLe
      records := by
        intro offset hBehind
        apply perform_record_of_order
        intro previous hLast
        rw [hRecords.last] at hLast
        exact hBehind previous (List.mem_of_getLast? hLast) }

------------------------------------------------------------
-- Layouts And Captures
------------------------------------------------------------

/- Bytes are parsed if they are words that increase. -/
theorem exists_ofBytes_iff
    {bs : Bytes} :
    (∃ index, ofBytes bs = .ok index) ↔
      entrySize ∣ bs.length ∧
      ((bs.pieces entrySize).map Bytes.ofBigEndian).Pairwise
        (· < ·) := by
  constructor
  · rintro ⟨index, hParsed⟩
    by_contra hNot
    have hFails : ∃ e, (Edit.parse bs).apply .empty = .error e :=
      Edit.apply_of_not_fits hNot
    rcases hFails with ⟨e, hError⟩
    cases hParsed.symm.trans hError
  · intro hWords
    have hFits : (Edit.parse bs).Fits empty.offsets := hWords
    rcases Edit.apply_of_fits hFits with ⟨index, hParsed, _⟩
    exact ⟨index, hParsed⟩

/-
  Bytes are the layout of an index exactly if they are whole
  words that increase, and each is found from the other if
  no offset exceeds a word. Whatever calls a capture goes
  through, and whichever of them fail, what the channel has
  taken and what waits are the layout of the offsets that
  were recorded.
-/
theorem index_of_run :
    (∀ bs : Bytes,
      (∃ index, ofBytes bs = .ok index) ↔
        entrySize ∣ bs.length ∧
        ((bs.pieces entrySize).map Bytes.ofBigEndian).Pairwise
          (· < ·)) ∧
    (∀ index : FrameIndex,
      (∀ offset ∈ index.offsets,
        offset < Bytes.wordCount entrySize) →
        ofBytes index.toBytes = .ok index) ∧
    (∀ (bs : Bytes) (index : FrameIndex),
      ofBytes bs = .ok index → index.toBytes = bs) ∧
    ∀ (ω : Type) (channel : Channel ω)
      (Holds : ω → Bytes → Prop),
      channel.TakesWhole Holds →
      ∀ (world : ω) (held : Bytes),
        Holds world held →
        ∀ calls : List Call,
          ∃ index taken,
            ((History.opened channel world).run calls).Captures
              Holds held index taken := by
  refine ⟨?_, ?_, ?_, ?_⟩
  · exact fun _ => exists_ofBytes_iff
  · exact fun _ hSmall => ofBytes_toBytes hSmall
  · exact fun _ _ hParsed => toBytes_of_ofBytes hParsed
  · intro ω channel Holds hWhole world held hHolds calls
    have hOpened :
        (History.opened channel world).Upholds channel Holds
          held :=
      ⟨[], [], rfl, stores_new channel hHolds⟩
    exact (hOpened.run hWhole calls).captures

/- Refuse the first write, and fail the first flush behind one. -/
def hesitant : Conduct where
  write := fun turn _ offered =>
    if turn = 0 then
      ⟨0, some .storageFull⟩
    else
      ⟨offered, none⟩
  flush := fun turn =>
    if turn = 2 then some .brokenPipe else none

theorem takesWhole_hesitant : hesitant.TakesWhole := by
  intro turn _ offered _
  by_cases hFirst : turn = 0
  · right
    simp [hesitant, hFirst]
  · left
    simp [hesitant, hFirst]

/-
  Offsets that are out of order, a write that is refused, and
  a flush that fails once the batch has been taken.
-/
theorem index_of_run_of_hesitant :
    let history :=
      (History.opened Sink.channel (.empty hesitant)).run
        [.record 7, .record 7, .flush, .record 300, .flush,
          .record 9, .record 301]
    history.made.map (fun entry => entry.2.isOk) =
        [true, false, false, true, false, false, true] ∧
      history.recorded = [7, 300, 301] ∧
      ∃ index taken,
        history.Captures (Sink.Holds hesitant) [] index taken ∧
        ofBytes (taken ++ history.capture.batch.toBytes) =
          .ok index ∧
        index.toBytes =
          taken ++ history.capture.batch.toBytes := by
  intro history
  have hRecorded : history.recorded = [7, 300, 301] := by
    cbv
  rcases index_of_run with ⟨_, hParses, hLaidOut, hCaptures⟩
  rcases hCaptures Sink Sink.channel (Sink.Holds hesitant)
    (Sink.takesWhole_channel takesWhole_hesitant)
    (.empty hesitant) [] ⟨rfl, rfl⟩ _ with
    ⟨index, taken, hIndex⟩
  have hParsed :
      ofBytes (taken ++ history.capture.batch.toBytes) =
        .ok index := by
    rw [hIndex.layout]
    apply hParses
    rw [hIndex.offsets, hRecorded]
    decide
  exact
    ⟨by cbv, hRecorded, index, taken, hIndex, hParsed,
      hLaidOut _ _ hParsed⟩

end Capture

end SplitStream
