import SplitStream.Proofs.Writer.Lagging
import SplitStream.Proofs.Writer.SinkPair

/-
  Delivery to channels that may fail but are truthful: a write
  tells how many bytes it has taken, and one that fails has
  taken none. What such a channel has received are the bytes
  that were counted. A sink may be watched, which tells from
  then on whether it has failed.

  Main declarations:
    * `Channel.Truthful`
    * `Channel.Truthful.deliver`
    * `Outlet.perform_putAll_of_truthful`
    * `Conduct.Truthful`
    * `WatchedSinks`
    * `WatchedSinks.truthful_data`
    * `WatchedSinks.perform_onCapture`
    * `WatchedSinks.Counted`
    * `ContainerWriter.lagging_counted`
    * `RawWriter.lagging_counted`
-/

------------------------------------------------------------
-- Truthful Channels
------------------------------------------------------------

namespace SplitStream

namespace Channel

variable {ω : Type}

/- A write of some bytes has failed, or has taken none. -/
def missed : Except IoKind Nat → Bool
  | .ok n => n == 0
  | .error _ => true

/-
  Writes append what they take to the bytes that the world
  holds. One that is missed takes nothing; what is then left
  of the world is another matter.
-/
def Truthful
    (channel : Channel ω)
    (Holds Left : ω → Bytes → Prop) : Prop :=
  ∀ (world : ω) (held bs : Bytes),
    Holds world held →
    bs ≠ [] →
      (∃ n next,
        channel.write bs world = (.ok (n + 1), next) ∧
        n < bs.length ∧
        Holds next (held ++ bs.take (n + 1))) ∨
      ∃ answer next,
        channel.write bs world = (answer, next) ∧
        missed answer = true ∧
        Left next held

variable
  {channel : Channel ω} {Holds Left : ω → Bytes → Prop}

/- All bytes are taken, or those before a failure. -/
theorem Truthful.deliverFrom
    (hTruthful : channel.Truthful Holds Left)
    (taken : Nat)
    (bs : Bytes)
    (world : ω)
    (held : Bytes)
    (hHolds : Holds world held) :
    (∃ next,
      channel.deliverFrom taken bs world =
        ⟨.ok (), taken + bs.length, next⟩ ∧
      Holds next (held ++ bs)) ∨
    ∃ kind n next,
      n < bs.length ∧
      channel.deliverFrom taken bs world =
        ⟨.error kind, taken + n, next⟩ ∧
      Left next (held ++ bs.take n) := by
  fun_induction channel.deliverFrom taken bs world
    generalizing held with
  | case1 taken world =>
    left
    exact ⟨world, rfl, by simpa using hHolds⟩
  | case2 taken world b rest kind next hWrite =>
    right
    rcases hTruthful world held (b :: rest) hHolds (by simp)
      with ⟨n, _, hTaken, _⟩ | ⟨_, _, hFailed, _, hLeft⟩
    · cases hWrite.symm.trans hTaken
    · cases hWrite.symm.trans hFailed
      exact ⟨kind, 0, next, by simp, rfl, by simpa using hLeft⟩
  | case3 taken world b rest next hWrite =>
    right
    rcases hTruthful world held (b :: rest) hHolds (by simp)
      with ⟨n, _, hTaken, _⟩ | ⟨_, _, hFailed, _, hLeft⟩
    · cases hWrite.symm.trans hTaken
    · cases hWrite.symm.trans hFailed
      exact
        ⟨.writeZero, 0, next, by simp, rfl, by simpa using hLeft⟩
  | case4 taken world b rest n next hWrite ih =>
    rcases hTruthful world held (b :: rest) hHolds (by simp)
      with ⟨m, _, hTaken, hLess, hNext⟩ |
        ⟨_, _, hFailed, hMissed, _⟩
    · cases hWrite.symm.trans hTaken
      rw [List.length_cons] at hLess
      rcases ih _ hNext with
        ⟨last, hLast, hHeld⟩ | ⟨kind, k, last, hShort, hLast, hHeld⟩
      · left
        refine ⟨last, ?_, ?_⟩
        · rw [hLast, List.length_drop, List.length_cons]
          congr 1
          omega
        · rw [List.append_assoc] at hHeld
          simpa using hHeld
      · right
        rw [List.length_drop] at hShort
        refine ⟨kind, n + 1 + k, last, ?_, ?_, ?_⟩
        · rw [List.length_cons]
          omega
        · rw [hLast, Nat.add_assoc]
        · rw [List.append_assoc] at hHeld
          have hTake :
              (b :: rest).take (n + 1 + k) =
                (b :: rest).take (n + 1) ++
                  (rest.drop n).take k :=
            List.take_add
          rw [hTake]
          exact hHeld
    · cases hWrite.symm.trans hFailed
      cases hMissed

theorem Truthful.deliver
    (hTruthful : channel.Truthful Holds Left)
    (bs : Bytes)
    {world : ω}
    {held : Bytes}
    (hHolds : Holds world held) :
    (∃ next,
      channel.deliver bs world = ⟨.ok (), bs.length, next⟩ ∧
      Holds next (held ++ bs)) ∨
    ∃ kind n next,
      n < bs.length ∧
      channel.deliver bs world = ⟨.error kind, n, next⟩ ∧
      Left next (held ++ bs.take n) := by
  have hDeliver := hTruthful.deliverFrom 0 bs world held hHolds
  simp only [Nat.zero_add] at hDeliver
  exact hDeliver

end Channel

------------------------------------------------------------
-- Pieces
------------------------------------------------------------

namespace Outlet

variable
  {ω : Type} {channel : Channel ω}
  {Holds Left : ω → Bytes → Prop}

theorem perform_put_of_truthful
    (hTruthful : channel.Truthful Holds Left)
    (piece : Bytes)
    (outlet : Outlet ω)
    (world : ω)
    {held : Bytes}
    (hChannel : outlet.channel = channel)
    (hHolds : Holds world held) :
    (∃ next,
      (put piece).perform (outlet, world) =
        (.ok (),
          { outlet with
            written := outlet.written + piece.length },
          next) ∧
      Holds next (held ++ piece)) ∨
    ∃ kind n next,
      n < piece.length ∧
      (put piece).perform (outlet, world) =
        (.error (.io kind),
          { outlet with written := outlet.written + n }, next) ∧
      Left next (held ++ piece.take n) := by
  rcases hTruthful.deliver piece hHolds with
    ⟨next, hPiece, hNext⟩ | ⟨kind, n, next, hLess, hPiece, hNext⟩
  · left
    refine ⟨next, ?_, hNext⟩
    simp only [put, Step.perform_ofStep, hChannel, hPiece]
    rfl
  · right
    refine ⟨kind, n, next, hLess, ?_, hNext⟩
    simp only [put, Step.perform_ofStep, hChannel, hPiece]
    rfl

/- All pieces are counted, or what was taken of them. -/
theorem perform_putAll_of_truthful
    (hTruthful : channel.Truthful Holds Left)
    (pieces : List Bytes)
    (outlet : Outlet ω)
    (world : ω)
    {held : Bytes}
    (hChannel : outlet.channel = channel)
    (hHolds : Holds world held) :
    (∃ next,
      (putAll pieces).perform (outlet, world) =
        (.ok (),
          { outlet with
            written := outlet.written + pieces.flatten.length },
          next) ∧
      Holds next (held ++ pieces.flatten)) ∨
    ∃ kind n next,
      n < pieces.flatten.length ∧
      (putAll pieces).perform (outlet, world) =
        (.error (.io kind),
          { outlet with written := outlet.written + n }, next) ∧
      Left next (held ++ pieces.flatten.take n) := by
  induction pieces generalizing outlet world held with
  | nil =>
    left
    exact ⟨world, rfl, by simpa using hHolds⟩
  | cons piece pieces ih =>
    rcases perform_put_of_truthful hTruthful piece outlet world
      hChannel hHolds with
      ⟨middle, hPut, hMiddle⟩ | ⟨kind, n, next, hLess, hPut, hNext⟩
    · rw [putAll, Step.perform_bind_of_ok hPut]
      rcases ih
        { outlet with written := outlet.written + piece.length }
        middle hChannel hMiddle with
        ⟨next, hRest, hNext⟩ | ⟨kind, n, next, hLess, hRest, hNext⟩
      · left
        refine ⟨next, ?_, by simpa using hNext⟩
        rw [hRest]
        simp [Nat.add_assoc]
      · right
        refine ⟨kind, piece.length + n, next, ?_, ?_, ?_⟩
        · rw [List.flatten_cons, List.length_append]
          omega
        · rw [hRest, Nat.add_assoc]
        · rw [List.flatten_cons, List.take_length_add_append,
            ← List.append_assoc]
          exact hNext
    · right
      rw [putAll, Step.perform_bind_of_error hPut]
      refine ⟨kind, n, next, ?_, rfl, ?_⟩
      · rw [List.flatten_cons, List.length_append]
        omega
      · rw [List.flatten_cons,
          List.take_append_of_le_length (Nat.le_of_lt hLess)]
        exact hNext

end Outlet

------------------------------------------------------------
-- Truthful Sinks
------------------------------------------------------------

/- A write that fails takes nothing. -/
def Conduct.Truthful
    (conduct : Conduct) : Prop :=
  ∀ turn size offered, 0 < offered →
    (conduct.write turn size offered).failure ≠ none →
      (conduct.write turn size offered).taken = 0

theorem Sink.Holds.write_of_truthful
    {conduct : Conduct}
    {sink : Sink}
    {received bs : Bytes}
    (h : sink.Holds conduct received)
    (hTruthful : conduct.Truthful)
    (hSome : bs ≠ []) :
    (∃ n next,
      Sink.write bs sink = (.ok (n + 1), next) ∧
      n < bs.length ∧
      next.Holds conduct (received ++ bs.take (n + 1))) ∨
    ∃ answer next,
      Sink.write bs sink = (answer, next) ∧
      Channel.missed answer = true ∧
      next.Holds conduct received := by
  have hPos : 0 < bs.length := List.length_pos_iff.mpr hSome
  have hTold :=
    hTruthful sink.turn sink.received.size bs.length hPos
  rw [← h.conduct] at hTold
  -- A write that takes nothing leaves what there was.
  have hNothing := h.append []
  rw [List.append_nil] at hNothing
  unfold Sink.write
  cases hAnswer :
      sink.conduct.write sink.turn sink.received.size
        bs.length with
  | mk taken failure =>
    rw [hAnswer] at hTold
    cases failure with
    | some kind =>
      right
      have hNone : taken = 0 := hTold (by simp)
      subst hNone
      exact ⟨.error kind, _, rfl, rfl, hNothing⟩
    | none =>
      cases taken with
      | zero =>
        right
        exact ⟨.ok 0, _, rfl, rfl, hNothing⟩
      | succ more =>
        left
        have hLength :
            (bs.take (more + 1)).length =
              min more (bs.length - 1) + 1 := by
          rw [List.length_take]
          omega
        have hTake :
            bs.take (min more (bs.length - 1) + 1) =
              bs.take (more + 1) := by
          rw [← hLength, List.length_take,
            ← List.take_eq_take_min]
        refine
          ⟨min more (bs.length - 1),
            { sink with
              received :=
                sink.received.append (bs.take (more + 1))
              turn := sink.turn + 1 },
            ?_, by omega, ?_⟩
        · rw [← hLength]
        · rw [hTake]
          exact h.append _

------------------------------------------------------------
-- Watched Sinks
------------------------------------------------------------

/-
  A sink for a container and a sink for its index, and whether
  a write or a flush of the first one has failed.
-/
structure WatchedSinks extends SinkPair where
  failed : Bool

namespace WatchedSinks

/- Two sinks that have received nothing. -/
def empty
    (data index : Conduct) : WatchedSinks where
  toSinkPair := .empty data index
  failed := false

/- The channel of the container. -/
def dataChannel : Channel WatchedSinks where
  write := fun bs sinks =>
    let (answer, data) := Sink.write bs sinks.data
    (answer,
      { sinks with
        data := data
        failed := sinks.failed || Channel.missed answer })
  flush := fun sinks =>
    let (result, data) := Sink.flush sinks.data
    (result,
      { sinks with
        data := data
        failed := sinks.failed || !result.isOk })

/- The channel of the index. -/
def indexChannel : Channel WatchedSinks :=
  Sink.channel.through
    (fun sinks => sinks.index)
    (fun sink sinks => { sinks with index := sink })

variable {data index : Conduct}

/-
  The channel of a container leaves the index as it is, and
  notes what it misses.
-/
theorem truthful_data
    (hData : data.Truthful)
    (sink : Sink)
    (failed : Bool) :
    dataChannel.Truthful
      (fun sinks received =>
        sinks.data.Holds data received ∧
          sinks.index = sink ∧ sinks.failed = failed)
      (fun sinks received =>
        sinks.data.Holds data received ∧
          sinks.index = sink ∧ sinks.failed = true) := by
  intro sinks received bs hBoth hSome
  rcases hBoth with ⟨hHolds, hIndex, hFailed⟩
  rcases hHolds.write_of_truthful hData hSome with
    ⟨n, next, hWrite, hLess, hNext⟩ |
      ⟨answer, next, hWrite, hMissed, hNext⟩
  · left
    refine
      ⟨n, { sinks with data := next }, ?_, hLess, hNext, hIndex,
        hFailed⟩
    simp [dataChannel, hWrite, Channel.missed]
  · right
    refine
      ⟨answer, { sinks with data := next, failed := true }, ?_,
        hMissed, hNext, hIndex, rfl⟩
    simp [dataChannel, hWrite, hMissed]

/- One that accepts everything leaves the index as it is. -/
theorem accepts_data
    (hData : data.Accepting)
    (Index : Sink → Prop) :
    dataChannel.Accepts fun sinks received =>
      sinks.data.Holds data received ∧ Index sinks.index where
  write := by
    intro sinks received bs hBoth hSome
    rcases hBoth with ⟨hHolds, hIndex⟩
    rcases hHolds.write hData hSome with
      ⟨n, next, hWrite, hLess, hNext⟩
    refine
      ⟨n, { sinks with data := next }, ?_, hLess, hNext, hIndex⟩
    simp [dataChannel, hWrite, Channel.missed]
  flush := fun _ _ hBoth => ⟨hBoth.1.flush, hBoth.2⟩

/- What a container and its index are received by. -/
def receivers
    (hData : data.Accepting)
    (hIndex : index.Reliable) : Receivers WatchedSinks where
  data := dataChannel
  index := indexChannel
  Holds := fun sinks received indexed =>
    sinks.data.Holds data received ∧
      sinks.index.Holds index indexed
  data_accepts := fun indexed =>
    accepts_data hData fun sink => sink.Holds index indexed
  index_accepts := fun received =>
    { write := by
        intro sinks indexed bs hBoth hSome
        rcases hBoth with ⟨hHolds, hIndexed⟩
        rcases hIndexed.write hIndex.1 hSome with
          ⟨n, next, hWrite, hLess, hNext⟩
        refine
          ⟨n, { sinks with index := next }, ?_, hLess, hHolds,
            hNext⟩
        simp [indexChannel, Channel.through, Sink.channel,
          hWrite]
      flush := fun _ _ hBoth => ⟨hBoth.1, hBoth.2.flush⟩ }
  index_settles := fun _ _ _ hBoth =>
    hBoth.2.flush_ok hIndex.2

/-
  Two worlds have become others, which differ from them by an
  index that both have.
-/
def Reindexed
    (left right next last : WatchedSinks) : Prop :=
  ∃ index,
    next = { left with index := index } ∧
      last = { right with index := index }

/- The channel of an index comes to the same in both. -/
theorem inStep_index
    (left right : WatchedSinks) :
    indexChannel.InStep (Reindexed left right)
      fun _ => False where
  write := by
    intro bs next last hBoth
    rcases hBoth with ⟨index, rfl, rfl⟩
    left
    exact
      ⟨(Sink.write bs index).1, _, _, rfl, rfl,
        (Sink.write bs index).2, rfl, rfl⟩
  flush := by
    intro next last hBoth
    rcases hBoth with ⟨index, rfl, rfl⟩
    left
    exact
      ⟨(Sink.flush index).1, _, _, rfl, rfl,
        (Sink.flush index).2, rfl, rfl⟩

end WatchedSinks

------------------------------------------------------------
-- Captures
------------------------------------------------------------

namespace Capture

variable {ω : Type}

/-
  An action on captures that touches a world only by the
  channel of the capture, and keeps that channel.
-/
structure ByChannel
    (action : Action (Capture ω × ω) Unit) : Prop where
  paced :
    ∀ Alike : ω → ω → Prop,
      KeepsStep (Fits Alike fun _ => False) Alike
        (fun _ => False) action
  channel :
    ∀ state, (action.final state).1.channel = state.1.channel

theorem byChannel_flush :
    ByChannel (flush : Action (Capture ω × ω) Unit) where
  paced := fun _ => lockstep_flush
  channel := by
    intro state
    unfold Step.final flush
    rw [Step.perform_ofStep]
    dsimp only
    split
    · rfl
    · rfl

theorem byChannel_record
    (offset : Nat) :
    ByChannel
      (record offset : Action (Capture ω × ω) Unit) where
  paced := fun _ => lockstep_record offset
  channel := by
    intro state
    rcases state with ⟨capture, world⟩
    rcases record_cases capture offset with
      hOrder | ⟨_, _, _, hRefused⟩
    · have hFlush :=
        byChannel_flush.channel (capture, world)
      unfold Step.final at hFlush ⊢
      rw [perform_record hOrder]
      by_cases hFull :
          batchEntries * FrameIndex.entrySize ≤
            capture.batch.size
      · rw [if_pos hFull]
        rcases hPerform : flush.perform (capture, world) with
          ⟨_ | _, next⟩
        · rw [Step.perform_bind_of_error hPerform]
          rw [hPerform] at hFlush
          exact hFlush
        · rw [Step.perform_bind_of_ok hPerform]
          rw [hPerform] at hFlush
          exact hFlush
      · rw [if_neg hFull]
        rfl
    · unfold Step.final
      rw [hRefused]

end Capture

namespace WatchedSinks

/-
  What is done to a capture comes to the same beside two
  worlds with the same index, and changes only that.
-/
theorem perform_onCapture
    {action : Action (Capture WatchedSinks × WatchedSinks) Unit}
    (hAction : Capture.ByChannel action)
    {outlet : Outlet WatchedSinks}
    (hCapture :
      ∀ capture ∈ outlet.capture,
        capture.channel = indexChannel)
    {left right : WatchedSinks}
    (hSame : left.index = right.index) :
    ∃ result capture index,
      (Outlet.onCapture action).perform (outlet, left) =
        (result, { outlet with capture := capture },
          { left with index := index }) ∧
      (Outlet.onCapture action).perform (outlet, right) =
        (result, { outlet with capture := capture },
          { right with index := index }) ∧
      capture.isSome = outlet.capture.isSome ∧
      ∀ next ∈ capture, next.channel = indexChannel := by
  have hBoth : Reindexed left right left right :=
    ⟨left.index, rfl, by rw [hSame]⟩
  rcases outlet with ⟨channel, written, _ | capture, frames⟩
  · refine ⟨.ok (), none, left.index, rfl, ?_, rfl, hCapture⟩
    rw [hSame]
    rfl
  · have hChannel := hCapture capture rfl
    have hFits :
        capture.Fits (Reindexed left right) fun _ => False := by
      unfold Capture.Fits
      rw [hChannel]
      exact inStep_index left right
    have hKept := hAction.channel (capture, left)
    unfold Step.final at hKept
    rcases hAction.paced (Reindexed left right) (capture, left)
      (capture, right) ⟨rfl, hFits, hBoth⟩ with
      ⟨result, ⟨captured, next⟩, ⟨_, last⟩, hLeft, hRight, rfl, _,
        index, rfl, rfl⟩ | ⟨_, _, _, hNever⟩
    · rw [hLeft] at hKept
      refine ⟨result, some captured, index, ?_, ?_, rfl, ?_⟩
      · simp only [Outlet.onCapture, Step.perform_ofStep, hLeft]
      · simp only [Outlet.onCapture, Step.perform_ofStep, hRight]
      · intro next hNext
        cases hNext
        exact hKept.trans hChannel
    · exact hNever.elim

/- A flush of the data leaves the outlet as it is. -/
theorem perform_flushChannel
    {outlet : Outlet WatchedSinks}
    (hChannel : outlet.channel = dataChannel)
    (sinks : WatchedSinks) :
    Outlet.flushChannel.perform (outlet, sinks) =
      ((Sink.flush sinks.data).1.mapError .io, outlet,
        { sinks with
          data := (Sink.flush sinks.data).2
          failed :=
            sinks.failed || !(Sink.flush sinks.data).1.isOk }) := by
  unfold Outlet.flushChannel
  rw [Step.perform_ofStep]
  simp only [hChannel]
  rfl

end WatchedSinks

------------------------------------------------------------
-- Counting
------------------------------------------------------------

/-
  An outlet to watched sinks has counted the bytes that the
  data sink has received, and may be known to have missed
  some.
-/
structure WatchedSinks.Counted
    (conduct : Conduct)
    (known : Bool)
    (state : Outlet WatchedSinks × WatchedSinks) : Prop where
  channel : state.1.channel = dataChannel
  capture :
    ∀ capture ∈ state.1.capture, capture.channel = indexChannel
  conduct : state.2.data.conduct = conduct
  written : state.1.written = state.2.data.contents.length
  failed : known = true → state.2.failed = true

namespace WatchedSinks

variable
  {conduct : Conduct} {known : Bool}
  {state : Outlet WatchedSinks × WatchedSinks}

theorem Counted.put
    (h : Counted conduct known state)
    (hTruthful : conduct.Truthful)
    (piece : Bytes) :
    Counted conduct known ((Outlet.put piece).final state) := by
  rcases state with ⟨outlet, sinks⟩
  have hData : sinks.data.Holds conduct sinks.data.contents :=
    ⟨rfl, h.conduct⟩
  have hWritten : outlet.written = sinks.data.contents.length :=
    h.written
  unfold Step.final
  rcases Outlet.perform_put_of_truthful
    (truthful_data hTruthful sinks.index sinks.failed) piece
    outlet sinks h.channel ⟨hData, rfl, rfl⟩ with
    ⟨next, hPut, hNext, _, hSame⟩ |
      ⟨kind, n, next, hLess, hPut, hNext, _, hFailed⟩
  · rw [hPut]
    refine ⟨h.channel, h.capture, hNext.conduct, ?_, ?_⟩
    · rw [hNext.contents, List.length_append, hWritten]
    · intro hKnown
      exact hSame.trans (h.failed hKnown)
  · rw [hPut]
    refine
      ⟨h.channel, h.capture, hNext.conduct, ?_, fun _ => hFailed⟩
    rw [hNext.contents, List.length_append, List.length_take,
      Nat.min_eq_left (Nat.le_of_lt hLess), hWritten]

/- What is done to the index is not counted. -/
theorem Counted.reindexed
    {outlet : Outlet WatchedSinks}
    {sinks : WatchedSinks}
    (h : Counted conduct known (outlet, sinks))
    {capture : Option (Capture WatchedSinks)}
    (hCapture :
      ∀ next ∈ capture, next.channel = indexChannel)
    (index : Sink) :
    Counted conduct known
      ({ outlet with capture := capture },
        { sinks with index := index }) :=
  ⟨h.channel, hCapture, h.conduct, h.written, h.failed⟩

theorem Counted.onCapture
    (h : Counted conduct known state)
    {action : Action (Capture WatchedSinks × WatchedSinks) Unit}
    (hAction : Capture.ByChannel action) :
    Counted conduct known
      ((Outlet.onCapture action).final state) := by
  rcases state with ⟨outlet, sinks⟩
  have hSame : sinks.index = sinks.index := rfl
  rcases perform_onCapture hAction h.capture hSame with
    ⟨result, capture, index, hPerform, _, _, hCapture⟩
  unfold Step.final
  rw [hPerform]
  exact h.reindexed hCapture index

theorem Counted.flushChannel
    (h : Counted conduct known state) :
    Counted conduct known (Outlet.flushChannel.final state) := by
  rcases state with ⟨outlet, sinks⟩
  have hChannel : outlet.channel = dataChannel := h.channel
  have hHolds : sinks.data.Holds conduct sinks.data.contents :=
    ⟨rfl, h.conduct⟩
  have hFlushed := hHolds.flush
  unfold Step.final
  rw [perform_flushChannel hChannel]
  refine ⟨h.channel, h.capture, hFlushed.conduct, ?_, ?_⟩
  · rw [hFlushed.contents]
    exact h.written
  · intro hKnown
    have hFailed : sinks.failed = true := h.failed hKnown
    simp [hFailed]

theorem Counted.attach
    {outlet attached : Outlet WatchedSinks}
    {sinks : WatchedSinks}
    (h : Counted conduct known (outlet, sinks))
    (hAttach : outlet.attach indexChannel = .ok attached) :
    Counted conduct known (attached, sinks) := by
  rcases Outlet.parts_of_attach hAttach with ⟨_, rfl⟩
  refine ⟨h.channel, ?_, h.conduct, h.written, h.failed⟩
  intro capture hCapture
  cases hCapture
  rfl

variable {Fails : Error → Prop}

/- Outlets go on counting, whatever fails. -/
theorem counting_puts
    (hTruthful : conduct.Truthful) :
    Outlet.PutsLag Fails (fun _ _ => False) fun _ =>
      Counted conduct known where
  same := fun _ _ hNever => hNever.elim
  capture :=
    Step.lags_of_kept fun _ h => h.onCapture Capture.byChannel_flush
  channel := Step.lags_of_kept fun _ h => h.flushChannel
  put := fun piece =>
    Step.lags_of_kept fun _ h => h.put hTruthful piece
  record := fun offset =>
    Step.lags_of_kept fun _ h =>
      h.onCapture (Capture.byChannel_record offset)
  count :=
    Step.lags_of_kept fun _ h =>
      ⟨h.channel, h.capture, h.conduct, h.written, h.failed⟩

end WatchedSinks

/- Container writers go on counting, whatever fails. -/
theorem ContainerWriter.lagging_counted
    {conduct : Conduct}
    (hTruthful : conduct.Truthful)
    (known : Bool)
    (Fails : Error → Prop)
    (origin : Regrouper) :
    FrameWriter.Lagging ContainerWriter Fails
      (fun _ _ => False)
      (fun _ => WatchedSinks.Counted conduct known) origin :=
  lagging
    (partsLag_of_puts (WatchedSinks.counting_puts hTruthful))
    origin

/- So do raw writers. -/
theorem RawWriter.lagging_counted
    {conduct : Conduct}
    (hTruthful : conduct.Truthful)
    (known : Bool)
    (Fails : Error → Prop)
    (origin : Regrouper) :
    FrameWriter.Lagging RawWriter Fails
      (fun _ _ => False)
      (fun _ => WatchedSinks.Counted conduct known) origin :=
  lagging
    (partsLag_of_puts (WatchedSinks.counting_puts hTruthful))
    origin

end SplitStream
