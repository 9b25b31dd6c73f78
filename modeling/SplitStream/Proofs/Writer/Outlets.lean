import SplitStream.Proofs.Writer.Delivery

/-
  Outlets seen from what has left them. The channel holds the
  bytes, and a capture has recorded the positions of the
  frames among them; in a container, the bytes are the layout
  of segments.

  Main declarations:
    * `Capture.Records`
    * `Outlet.Carries`
    * `Outlet.Carries.emit`
    * `Outlet.Carries.flush`
    * `Outlet.Carries.attach`
    * `Outlet.Stands`
    * `Outlet.Stands.putHeader`
    * `Outlet.Stands.putTerminator`
    * `Outlet.Stands.emit`
    * `Outlet.Stands.flush`
    * `Outlet.Stands.attach`
-/

------------------------------------------------------------
-- Captures
------------------------------------------------------------

namespace SplitStream

namespace Capture

variable {ω : Type} {receivers : Receivers ω}

/-
  Offsets have been recorded: the first ones have been
  written to the channel, and the others are in the batch.
-/
structure Records
    (capture : Capture ω)
    (channel : Channel ω)
    (indexed : Bytes)
    (offsets : List Nat) : Prop where
  channel : capture.channel = channel
  layout :
    indexed ++ capture.batch.toBytes =
      offsets.flatMap FrameIndex.encodeOffset
  last : capture.last = offsets.getLast?
  entries : capture.entries = offsets.length

variable
  {capture : Capture ω} {world : ω}
  {received indexed : Bytes} {offsets : List Nat}

/- What the batch held is in the channel. -/
theorem Records.emptied
    {channel : Channel ω}
    (hRecords : capture.Records channel indexed offsets) :
    { capture with batch := .empty }.Records channel
      (indexed ++ capture.batch.toBytes) offsets where
  channel := hRecords.channel
  layout := by simpa using hRecords.layout
  last := hRecords.last
  entries := hRecords.entries

/- The batch is written. -/
theorem Records.flush
    (hRecords : capture.Records receivers.index indexed offsets)
    (hHolds : receivers.Holds world received indexed) :
    ∃ next,
      Capture.flush.perform (capture, world) =
        (.ok (), { capture with batch := .empty }, next) ∧
      receivers.Holds next received
        (indexed ++ capture.batch.toBytes) ∧
      { capture with batch := .empty }.Records receivers.index
        (indexed ++ capture.batch.toBytes) offsets := by
  rcases (receivers.index_accepts received).deliver
    capture.batch.toBytes hHolds with ⟨middle, hBatch, hMiddle⟩
  have hFlush := (receivers.index_accepts received).flush _ _ hMiddle
  have hSettles := receivers.index_settles received _ _ hMiddle
  refine
    ⟨(receivers.index.flush middle).2, ?_, hFlush,
      hRecords.emptied⟩
  simp only [Capture.flush, Step.perform_ofStep,
    hRecords.channel, hBatch, hSettles]
  rfl

/- The capture with one more offset in its batch. -/
def noted
    (capture : Capture ω)
    (offset : Nat) : Capture ω :=
  { capture with
    batch :=
      capture.batch.append (FrameIndex.encodeOffset offset)
    last := some offset
    entries := capture.entries + 1 }

theorem Records.noted
    {channel : Channel ω}
    (hRecords : capture.Records channel indexed offsets)
    (offset : Nat) :
    (capture.noted offset).Records channel indexed
      (offsets ++ [offset]) where
  channel := hRecords.channel
  layout := by
    simp [Capture.noted, ← hRecords.layout]
  last := by simp [Capture.noted]
  entries := by simp [Capture.noted, hRecords.entries]

/- In order, an offset is noted behind a batch with room. -/
theorem perform_record
    {offset : Nat}
    (hOrder :
      ∀ previous ∈ capture.last, previous < offset) :
    (record offset).perform (capture, world) =
      ((if batchEntries * FrameIndex.entrySize ≤
            capture.batch.size then
          Capture.flush
        else
          pure ()) >>= fun _ =>
        modify fun (capture, world) =>
          (capture.noted offset, world) :
        Action (Capture ω × ω) Unit).perform
        (capture, world) := by
  unfold record
  rw [Step.perform_bind_of_ok (Step.perform_get _)]
  cases hLast : capture.last with
  | none =>
    by_cases hFull :
        batchEntries * FrameIndex.entrySize ≤ capture.batch.size
    · simp only [hLast, hFull, if_true]
      rfl
    · simp only [hLast, hFull, if_false]
      rfl
  | some previous =>
    have hLess := Nat.not_le.mpr (hOrder previous hLast)
    by_cases hFull :
        batchEntries * FrameIndex.entrySize ≤ capture.batch.size
    · simp only [hLast, hLess, hFull, if_true, if_false]
      rfl
    · simp only [hLast, hLess, hFull, if_false]
      rfl

/- Out of order, an offset is refused and changes nothing. -/
theorem record_cases
    (capture : Capture ω)
    (offset : Nat) :
    (∀ previous ∈ capture.last, previous < offset) ∨
    ∃ previous,
      capture.last = some previous ∧
      offset ≤ previous ∧
      ∀ world,
        (record offset).perform (capture, world) =
          (.error (.unorderedIndex previous offset), capture,
            world) := by
  cases hLast : capture.last with
  | none =>
    left
    intro previous hSome
    cases hSome
  | some previous =>
    by_cases hLe : offset ≤ previous
    · right
      refine ⟨previous, rfl, hLe, ?_⟩
      intro world
      unfold record
      rw [Step.perform_bind_of_ok (Step.perform_get _)]
      simp only [hLast, if_pos hLe]
      rfl
    · left
      intro other hSome
      cases hSome
      exact Nat.lt_of_not_le hLe

/- An offset behind all others is recorded. -/
theorem Records.record
    (hRecords : capture.Records receivers.index indexed offsets)
    (hHolds : receivers.Holds world received indexed)
    {offset : Nat}
    (hBehind : ∀ previous ∈ offsets, previous < offset) :
    ∃ recorded next indexed',
      (Capture.record offset).perform (capture, world) =
        (.ok (), recorded, next) ∧
      receivers.Holds next received indexed' ∧
      recorded.Records receivers.index indexed'
        (offsets ++ [offset]) := by
  have hOrder :
      ∀ previous ∈ capture.last, previous < offset := by
    intro previous hLast
    rw [hRecords.last] at hLast
    exact hBehind previous (List.mem_of_getLast? hLast)
  rw [perform_record hOrder]
  split
  · rcases hRecords.flush hHolds with
      ⟨next, hFlush, hNext, hFlushed⟩
    rw [Step.perform_bind_of_ok hFlush]
    exact ⟨_, next, _, rfl, hNext, hFlushed.noted offset⟩
  · exact ⟨_, world, _, rfl, hHolds, hRecords.noted offset⟩

end Capture

------------------------------------------------------------
-- Outlets
------------------------------------------------------------

namespace Outlet

variable {ω : Type}

/-
  Bytes have left the outlet, with frames at some of their
  positions: the channel has received the bytes, and the
  capture, if there is one, has recorded the positions.
-/
structure Carries
    (receivers : Receivers ω)
    (outlet : Outlet ω)
    (world : ω)
    (captured : Bool)
    (bytes : Bytes)
    (offsets : List Nat) : Prop where
  channel : outlet.channel = receivers.data
  written : outlet.written = bytes.length
  frames : outlet.frames = offsets.length
  captured : outlet.capture.isSome = captured
  within : ∀ offset ∈ offsets, offset < bytes.length
  holds :
    ∃ indexed,
      receivers.Holds world bytes indexed ∧
      (outlet.capture = none → indexed = []) ∧
      ∀ capture ∈ outlet.capture,
        capture.Records receivers.index indexed offsets

/- Every recorded offset has been written. -/
def Drained
    (outlet : Outlet ω) : Prop :=
  ∀ capture ∈ outlet.capture, capture.batch.toBytes = []

/- Once its position is recorded, a frame leaves in pieces. -/
theorem perform_emit_of_recorded
    (layout : Bytes → Bytes → List Bytes)
    (block packed : Bytes)
    {outlet recorded : Outlet ω}
    {world middle : ω}
    (hRecord :
      (onCapture (Capture.record outlet.written)).perform
          (outlet, world) =
        (.ok (), recorded, middle)) :
    (emit layout block packed).perform (outlet, world) =
      (putAll (layout block packed) >>= fun _ =>
        modify fun (outlet, world) =>
          ({ outlet with frames := outlet.frames + 1 }, world) :
        Action (Outlet ω × ω) Unit).perform
        (recorded, middle) := by
  unfold emit
  rw [Step.perform_bind_of_ok (Step.perform_get _)]
  exact Step.perform_bind_of_ok hRecord

/- Nothing leaves if its position is not recorded. -/
theorem perform_emit_of_unrecorded
    (layout : Bytes → Bytes → List Bytes)
    (block packed : Bytes)
    {outlet captured : Outlet ω}
    {world middle : ω}
    {e : Error}
    (hRecord :
      (onCapture (Capture.record outlet.written)).perform
          (outlet, world) =
        (.error e, captured, middle)) :
    (emit layout block packed).perform (outlet, world) =
      (.error e, captured, middle) := by
  unfold emit
  rw [Step.perform_bind_of_ok (Step.perform_get _)]
  exact Step.perform_bind_of_error hRecord

/- A capture is new, and attached before the first frame. -/
theorem parts_of_attach
    {outlet attached : Outlet ω}
    {channel : Channel ω}
    (hAttach : outlet.attach channel = .ok attached) :
    outlet.frames = 0 ∧
      attached = { outlet with capture := some (.new channel) } := by
  unfold Outlet.attach at hAttach
  split at hAttach
  · cases hAttach
  · rename_i hNone
    cases hAttach
    exact ⟨Nat.eq_zero_of_not_pos hNone, rfl⟩

namespace Carries

variable
  {receivers : Receivers ω} {outlet : Outlet ω} {world : ω}
  {captured : Bool} {bytes : Bytes} {offsets : List Nat}

/-
  The index has received the first positions, and the batch
  of the capture has the others.
-/
theorem indexed
    (h : outlet.Carries receivers world true bytes offsets) :
    ∃ capture indexed,
      outlet.capture = some capture ∧
      receivers.Holds world bytes indexed ∧
      indexed ++ capture.batch.toBytes =
        offsets.flatMap FrameIndex.encodeOffset := by
  rcases h.holds with ⟨indexed, hHolds, _, hSome⟩
  rcases Option.isSome_iff_exists.mp h.captured with
    ⟨capture, hCapture⟩
  exact
    ⟨capture, indexed, hCapture, hHolds,
      (hSome capture hCapture).layout⟩

/- Once the batch is written, the index has every position. -/
theorem received
    (h : outlet.Carries receivers world captured bytes offsets)
    (hDrained : outlet.Drained) :
    receivers.Holds world bytes
      (if captured then
        offsets.flatMap FrameIndex.encodeOffset
      else
        []) := by
  cases captured with
  | false =>
    rcases h.holds with ⟨indexed, hHolds, hNone, _⟩
    rw [hNone (Option.isSome_eq_false_iff.mp h.captured |>
      Option.isNone_iff_eq_none.mp)] at hHolds
    exact hHolds
  | true =>
    rcases h.indexed with
      ⟨capture, indexed, hCapture, hHolds, hLayout⟩
    rw [hDrained capture hCapture, List.append_nil] at hLayout
    rw [if_pos rfl, ← hLayout]
    exact hHolds

/- Bytes without frames leave in pieces. -/
theorem putAll
    (h : outlet.Carries receivers world captured bytes offsets)
    (pieces : List Bytes) :
    ∃ outlet' next,
      (Outlet.putAll pieces).perform (outlet, world) =
        (.ok (), outlet', next) ∧
      outlet'.Carries receivers next captured
        (bytes ++ pieces.flatten) offsets := by
  rcases h.holds with ⟨indexed, hHolds, hNone, hSome⟩
  rcases perform_putAll pieces outlet world h.channel hHolds with
    ⟨next, hPut, hNext⟩
  refine ⟨_, next, hPut, ?_⟩
  exact
    { channel := h.channel
      written := by simp [h.written]
      frames := h.frames
      captured := h.captured
      within := by
        intro offset hOffset
        have hLess := h.within offset hOffset
        rw [List.length_append]
        omega
      holds := ⟨indexed, hNext, hNone, hSome⟩ }

/- The position behind all bytes is recorded. -/
theorem onCapture_record
    (h : outlet.Carries receivers world captured bytes offsets) :
    ∃ capture next indexed,
      (onCapture (Capture.record outlet.written)).perform
          (outlet, world) =
        (.ok (), { outlet with capture := capture }, next) ∧
      capture.isSome = captured ∧
      receivers.Holds next bytes indexed ∧
      (capture = none → indexed = []) ∧
      ∀ recorded ∈ capture,
        recorded.Records receivers.index indexed
          (offsets ++ [outlet.written]) := by
  rcases h.holds with ⟨indexed, hHolds, hNone, hSome⟩
  have hCaptured := h.captured
  have hWithin := h.within
  rw [← h.written] at hWithin
  rcases outlet with ⟨channel, written, _ | capture, frames⟩
  · exact
      ⟨none, world, indexed, rfl, hCaptured, hHolds, hNone,
        by simp⟩
  · rcases (hSome capture rfl).record hHolds hWithin with
      ⟨recorded, next, indexed', hRecord, hNext, hRecorded⟩
    exact
      ⟨some recorded, next, indexed',
        by simp [onCapture, hRecord], hCaptured, hNext,
        by simp, by simpa using hRecorded⟩

/- A frame leaves, and its position is recorded. -/
theorem emit
    (h : outlet.Carries receivers world captured bytes offsets)
    (layout : Bytes → Bytes → List Bytes)
    (block packed : Bytes)
    (hSome : 0 < (layout block packed).flatten.length) :
    ∃ outlet' next,
      (Outlet.emit layout block packed).perform
          (outlet, world) =
        (.ok (), outlet', next) ∧
      outlet'.Carries receivers next captured
        (bytes ++ (layout block packed).flatten)
        (offsets ++ [bytes.length]) := by
  rcases h.onCapture_record with
    ⟨capture, middle, indexed, hRecord, hCaptured, hHolds, hNone,
      hRecorded⟩
  rcases perform_putAll (layout block packed)
    { outlet with capture := capture } middle h.channel hHolds with
    ⟨next, hPut, hNext⟩
  rw [h.written] at hRecorded
  refine
    ⟨{ outlet with
        written :=
          outlet.written + (layout block packed).flatten.length
        capture := capture
        frames := outlet.frames + 1 },
      next, ?_, ?_⟩
  · rw [perform_emit_of_recorded layout block packed hRecord,
      Step.perform_bind_of_ok hPut]
    rfl
  · exact
      { channel := h.channel
        written := by simp [h.written]
        frames := by simp [h.frames]
        captured := hCaptured
        within := by
          intro offset hOffset
          rw [List.length_append]
          rcases List.mem_append.mp hOffset with hOld | hNew
          · have hLess := h.within offset hOld
            omega
          · rw [List.mem_singleton.mp hNew]
            omega
        holds := ⟨indexed, hNext, hNone, hRecorded⟩ }

------------------------------------------------------------
-- Flushing
------------------------------------------------------------

/- The rest of the index is written. -/
theorem flushCapture
    (h : outlet.Carries receivers world captured bytes offsets) :
    ∃ outlet' next,
      (onCapture Capture.flush).perform (outlet, world) =
        (.ok (), outlet', next) ∧
      outlet'.Carries receivers next captured bytes offsets ∧
      outlet'.Drained := by
  rcases h.holds with ⟨indexed, hHolds, hNone, hSome⟩
  have hChannel := h.channel
  have hWritten := h.written
  have hFrames := h.frames
  have hCaptured := h.captured
  rcases outlet with ⟨channel, written, _ | capture, frames⟩
  · refine ⟨_, world, rfl, h, ?_⟩
    intro capture hCapture
    contradiction
  · rcases (hSome capture rfl).flush hHolds with
      ⟨next, hFlush, hNext, hFlushed⟩
    refine
      ⟨⟨channel, written, some { capture with batch := .empty },
          frames⟩,
        next, by simp [onCapture, hFlush], ?_, ?_⟩
    · exact
        { channel := hChannel
          written := hWritten
          frames := hFrames
          captured := hCaptured
          within := h.within
          holds := ⟨_, hNext, by simp, by simpa using hFlushed⟩ }
    · intro drained hDrained
      cases hDrained
      rfl

/- The channel is flushed, which changes no bytes. -/
theorem flushChannel
    (h : outlet.Carries receivers world captured bytes offsets) :
    ∃ result next,
      Outlet.flushChannel.perform (outlet, world) =
        (result, outlet, next) ∧
      outlet.Carries receivers next captured bytes offsets ∧
      (∀ e, result = .error e → ∃ kind, e = .io kind) ∧
      (receivers.Settled → result = .ok ()) := by
  rcases h.holds with ⟨indexed, hHolds, hIndexed⟩
  refine
    ⟨((receivers.data.flush world).1.mapError .io),
      (receivers.data.flush world).2, ?_, ?_, ?_, ?_⟩
  · simp [Outlet.flushChannel, h.channel]
  · exact
      { h with
        holds :=
          ⟨indexed,
            (receivers.data_accepts indexed).flush _ _ hHolds,
            hIndexed⟩ }
  · intro e hError
    cases hFlush : (receivers.data.flush world).1 with
    | error kind =>
      rw [hFlush] at hError
      cases hError
      exact ⟨kind, rfl⟩
    | ok _ =>
      rw [hFlush] at hError
      contradiction
  · intro hSettled
    rw [hSettled indexed world _ hHolds]
    rfl

/- Only the flush of the channel may fail. -/
theorem flush
    (h : outlet.Carries receivers world captured bytes offsets) :
    ∃ result outlet' next,
      Outlet.flush.perform (outlet, world) =
        (result, outlet', next) ∧
      outlet'.Carries receivers next captured bytes offsets ∧
      outlet'.Drained ∧
      (∀ e, result = .error e → ∃ kind, e = .io kind) ∧
      (receivers.Settled → result = .ok ()) := by
  rcases h.flushCapture with
    ⟨outlet', middle, hCapture, hMiddle, hDrained⟩
  rcases hMiddle.flushChannel with
    ⟨result, next, hChannel, hNext, hError, hSettled⟩
  refine
    ⟨result, outlet', next, ?_, hNext, hDrained, hError, hSettled⟩
  rw [Outlet.flush, Step.perform_bind_of_ok hCapture, hChannel]

------------------------------------------------------------
-- Starting
------------------------------------------------------------

theorem new
    (hHolds : receivers.Holds world [] []) :
    (Outlet.new receivers.data).Carries receivers world false
      [] [] where
  channel := rfl
  written := rfl
  frames := rfl
  captured := rfl
  within := by simp
  holds := ⟨[], hHolds, fun _ => rfl, by simp [Outlet.new]⟩

/- An index is captured from the first frame on. -/
theorem attach
    (h : outlet.Carries receivers world captured bytes offsets)
    {attached : Outlet ω}
    (hAttach : outlet.attach receivers.index = .ok attached) :
    attached.Carries receivers world true bytes offsets ∧
      attached.Drained ∧
      attached.frames = outlet.frames := by
  rcases parts_of_attach hAttach with ⟨hZero, rfl⟩
  rcases h.holds with ⟨indexed, hHolds, hNone, hSome⟩
  have hOffsets : offsets = [] := by
    rw [← List.length_eq_zero_iff, ← h.frames]
    exact hZero
  subst hOffsets
  have hIndexed : indexed = [] := by
    cases hCapture : outlet.capture with
    | none => exact hNone hCapture
    | some capture =>
      have hLayout := (hSome capture hCapture).layout
      exact (List.append_eq_nil_iff.mp hLayout).1
  subst hIndexed
  refine ⟨?_, ?_, rfl⟩
  · exact
      { channel := h.channel
        written := h.written
        frames := h.frames
        captured := rfl
        within := h.within
        holds := by
          refine ⟨[], hHolds, by simp, ?_⟩
          intro capture hCapture
          cases hCapture
          exact ⟨rfl, rfl, rfl, rfl⟩ }
  · intro capture hCapture
    cases hCapture
    rfl

end Carries

------------------------------------------------------------
-- Segments
------------------------------------------------------------

open Segment

/-
  Segments have left the outlet: the channel has received
  their layout, and the capture, if there is one, has
  recorded the positions of the frames.
-/
structure Stands
    (receivers : Receivers ω)
    (outlet : Outlet ω)
    (world : ω)
    (captured : Bool)
    (segments : List Segment) : Prop where
  channel : outlet.channel = receivers.data
  written : outlet.written = (layout segments).length
  frames : outlet.frames = Segment.frames segments
  captured : outlet.capture.isSome = captured
  holds :
    ∃ indexed,
      receivers.Holds world (layout segments) indexed ∧
      (outlet.capture = none → indexed = []) ∧
      ∀ capture ∈ outlet.capture,
        capture.Records receivers.index indexed
          (offsets 0 segments)

variable
  {receivers : Receivers ω} {outlet : Outlet ω} {world : ω}
  {captured : Bool} {segments : List Segment}

/- Segments have left if their layout and positions have. -/
theorem stands_iff_carries :
    outlet.Stands receivers world captured segments ↔
      outlet.Carries receivers world captured (layout segments)
        (offsets 0 segments) := by
  constructor
  · intro h
    exact
      { channel := h.channel
        written := h.written
        frames := by rw [h.frames, length_offsets]
        captured := h.captured
        within := by
          intro offset hOffset
          have hLess := lt_of_mem_offsets hOffset
          rwa [Nat.zero_add] at hLess
        holds := h.holds }
  · intro h
    exact
      { channel := h.channel
        written := h.written
        frames := by rw [h.frames, length_offsets]
        captured := h.captured
        holds := h.holds }

namespace Stands

/- Once the batch is written, the index has every position. -/
theorem indexed
    (h : outlet.Stands receivers world true segments)
    (hDrained : outlet.Drained) :
    receivers.Holds world (layout segments)
      ((offsets 0 segments).flatMap
        FrameIndex.encodeOffset) :=
  (stands_iff_carries.mp h).received hDrained

/- A segment without data leaves in pieces. -/
theorem putAll
    (h : outlet.Stands receivers world captured segments)
    {segment : Segment}
    (hFrame : segment.isFrame = false)
    {pieces : List Bytes}
    (hPieces : pieces.flatten = segment.encode) :
    ∃ outlet' next,
      (Outlet.putAll pieces).perform (outlet, world) =
        (.ok (), outlet', next) ∧
      outlet'.Stands receivers next captured
        (segments ++ [segment]) := by
  rcases (stands_iff_carries.mp h).putAll pieces with
    ⟨outlet', next, hPut, hNext⟩
  refine ⟨outlet', next, hPut, stands_iff_carries.mpr ?_⟩
  rw [hPieces] at hNext
  simpa [offsets_append, offsets, hFrame] using hNext

theorem putHeader
    (h : outlet.Stands receivers world captured segments)
    {fields : Header}
    (hRegular : fields.Regular) :
    ∃ outlet' next,
      (Outlet.putHeader fields).perform (outlet, world) =
        (.ok fields.writtenLength, outlet', next) ∧
      outlet'.Stands receivers next captured
        (segments ++ [.header fields]) := by
  have hName : ¬ 255 < fields.name.length := by
    have := hRegular.name
    omega
  rcases h.putAll rfl
    (by rfl : fields.pieces.flatten =
      (Segment.header fields).encode) with
    ⟨outlet', next, hPut, hNext⟩
  refine ⟨outlet', next, ?_, hNext⟩
  unfold Outlet.putHeader
  rw [if_neg hName, Step.perform_bind_of_ok hPut]
  rfl

theorem putTerminator
    (h : outlet.Stands receivers world captured segments) :
    ∃ outlet' next,
      (Outlet.put Frame.terminator).perform (outlet, world) =
        (.ok (), outlet', next) ∧
      outlet'.Stands receivers next captured
        (segments ++ [.terminator]) := by
  rcases h.putAll rfl (by simp [encode] :
    [Frame.terminator].flatten = Segment.terminator.encode) with
    ⟨outlet', next, hPut, hNext⟩
  rw [Outlet.putAll_singleton] at hPut
  exact ⟨outlet', next, hPut, hNext⟩

/- A frame leaves, and its position is recorded. -/
theorem emit
    (h : outlet.Stands receivers world captured segments)
    (checksums : Selection)
    (content : PackedBlock) :
    ∃ outlet' next,
      (Outlet.emit (Frame.containerPieces checksums)
          content.block content.packed).perform
          (outlet, world) =
        (.ok (), outlet', next) ∧
      outlet'.Stands receivers next captured
        (segments ++ [.frame checksums content]) := by
  rcases (stands_iff_carries.mp h).emit
    (Frame.containerPieces checksums) content.block content.packed
    (length_encode_pos (.frame checksums content)) with
    ⟨outlet', next, hEmit, hNext⟩
  have hEncode :
      (Frame.containerPieces checksums content.block
        content.packed).flatten =
      (Segment.frame checksums content).encode :=
    rfl
  rw [hEncode] at hNext
  refine ⟨outlet', next, hEmit, stands_iff_carries.mpr ?_⟩
  simpa [offsets_append, offsets, isFrame] using hNext

/- The rest of the index is written. -/
theorem flushCapture
    (h : outlet.Stands receivers world captured segments) :
    ∃ outlet' next,
      (onCapture Capture.flush).perform (outlet, world) =
        (.ok (), outlet', next) ∧
      outlet'.Stands receivers next captured segments ∧
      outlet'.Drained := by
  simpa only [stands_iff_carries] using
    (stands_iff_carries.mp h).flushCapture

/- The channel is flushed, which changes no bytes. -/
theorem flushChannel
    (h : outlet.Stands receivers world captured segments) :
    ∃ result next,
      Outlet.flushChannel.perform (outlet, world) =
        (result, outlet, next) ∧
      outlet.Stands receivers next captured segments ∧
      (∀ e, result = .error e → ∃ kind, e = .io kind) ∧
      (receivers.Settled → result = .ok ()) := by
  simpa only [stands_iff_carries] using
    (stands_iff_carries.mp h).flushChannel

/- Only the flush of the channel may fail. -/
theorem flush
    (h : outlet.Stands receivers world captured segments) :
    ∃ result outlet' next,
      Outlet.flush.perform (outlet, world) =
        (result, outlet', next) ∧
      outlet'.Stands receivers next captured segments ∧
      outlet'.Drained ∧
      (∀ e, result = .error e → ∃ kind, e = .io kind) ∧
      (receivers.Settled → result = .ok ()) := by
  simpa only [stands_iff_carries] using
    (stands_iff_carries.mp h).flush

theorem new
    (hHolds : receivers.Holds world [] []) :
    (Outlet.new receivers.data).Stands receivers world false
      [] :=
  stands_iff_carries.mpr (Carries.new hHolds)

/- An index is captured from the first frame on. -/
theorem attach
    (h : outlet.Stands receivers world captured segments)
    {attached : Outlet ω}
    (hAttach : outlet.attach receivers.index = .ok attached) :
    attached.Stands receivers world true segments ∧
      attached.Drained ∧
      attached.frames = outlet.frames := by
  simpa only [stands_iff_carries] using
    (stands_iff_carries.mp h).attach hAttach

end Stands

end Outlet

end SplitStream
