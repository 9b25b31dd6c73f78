import SplitStream.Proofs.Writer.Keeping
import SplitStream.Proofs.Writer.RawKeeping

/-
  Writers that are closed after a copy. A close ends with a
  flush of each channel, with all bytes handed to both of
  them before: the frames to one, their positions to the
  other.

  Main declarations:
    * `ContainerWriter.Keeps.writeAll_of_ok`
    * `ContainerWriter.Keeps.finish_of_ok`
    * `ContainerWriter.Keeps.close_of_ok`
    * `RawWriter.Keeps.writeAll_of_ok`
    * `RawWriter.Keeps.close_of_ok`
-/

------------------------------------------------------------
-- Drained Outlets
------------------------------------------------------------

namespace SplitStream

variable {ω : Type} {receivers : Receivers ω}

/- With nothing in its batch, a capture only flushes. -/
theorem Capture.perform_flush_of_drained
    {capture : Capture ω}
    (hDrained : capture.batch.toBytes = [])
    (world : ω) :
    ∃ result,
      Capture.flush.perform (capture, world) =
        (result, { capture with batch := .empty },
          (capture.channel.flush world).2) := by
  have hDeliver :
      capture.channel.deliver capture.batch.toBytes world =
        ⟨.ok (), 0, world⟩ := by
    rw [hDrained, Channel.deliver, Channel.deliverFrom]
  refine ⟨(capture.channel.flush world).1.mapError .io, ?_⟩
  simp only [Capture.flush, Step.perform_ofStep, hDeliver]

/- The positions of all frames are with the index. -/
theorem Outlet.Carries.holds_of_drained
    {outlet : Outlet ω}
    {world : ω}
    {bytes : Bytes}
    {offsets : List Nat}
    (h : outlet.Carries receivers world true bytes offsets)
    (hDrained : outlet.Drained) :
    receivers.Holds world bytes
        (offsets.flatMap FrameIndex.encodeOffset) ∧
      ∃ result outlet',
        (onCapture Capture.flush).perform (outlet, world) =
          (result, outlet',
            (receivers.index.flush world).2) ∧
        outlet'.channel = receivers.data := by
  rcases h.holds with ⟨indexed, _, _, hRecords⟩
  rcases Option.isSome_iff_exists.mp h.captured with
    ⟨capture, hCapture⟩
  rcases
    Capture.perform_flush_of_drained
      (hDrained capture hCapture) world with
    ⟨result, hFlush⟩
  refine
    ⟨h.received hDrained, result,
      { outlet with
        capture := some { capture with batch := .empty } },
      ?_, h.channel⟩
  simp only [onCapture, Step.perform_ofStep, hCapture, hFlush,
    (hRecords capture hCapture).channel]

------------------------------------------------------------
-- Container Writers
------------------------------------------------------------

namespace ContainerWriter

open Segment

variable
  {codec : Codec} {fields : Header}
  {writer writer' : ContainerWriter ω} {world next : ω}
  {captured torn : Bool} {kept : Bytes}

theorem Keeps.writeAll_of_ok
    (h :
      writer.Keeps receivers codec fields world captured torn
        kept)
    {pieces : List Bytes}
    (hWrite :
      (FrameWriter.writeAll pieces).perform (writer, world) =
        (.ok (), writer', next)) :
    ∃ kept',
      writer'.Keeps receivers codec fields next captured torn
        kept' := by
  induction pieces generalizing writer world kept with
  | nil =>
    cases hWrite
    exact ⟨kept, h⟩
  | cons piece pieces ih =>
    rcases Step.ok_of_perform_bind hWrite with
      ⟨_, ⟨middle, w⟩, hPiece, hRest⟩
    rcases h.write piece with
      ⟨result, after, w', taken, hPerform, hKeeps, _⟩
    cases hPerform.symm.trans hPiece
    exact ih hKeeps hRest

theorem Keeps.finish_of_ok
    (h :
      writer.Keeps receivers codec fields world captured torn
        kept)
    {n : Nat}
    (hFinish :
      ContainerWriter.finish.perform (writer, world) =
        (.ok n, writer', next)) :
    writer'.Keeps receivers codec fields next captured torn
        kept ∧
      writer'.stage = .finished := by
  rcases h.finish with
    ⟨result, after, w, hPerform, hKeeps, _, hStage, _⟩
  rw [hFinish] at hPerform
  cases hPerform
  refine ⟨?_, hStage n rfl⟩
  simpa [channelFailed] using hKeeps

/-
  A writer between members is closed by one flush of the
  index and one of the container.
-/
theorem Keeps.close_of_idle
    (h :
      writer.Keeps receivers codec fields world true false kept)
    (hOpen : writer.stage ≠ .opened)
    (hClose :
      ContainerWriter.close.perform (writer, world) =
        (.ok (), writer', next)) :
    ∃ segments,
      Complete segments ∧
      receivers.Holds world (layout segments)
        ((offsets 0 segments).flatMap FrameIndex.encodeOffset) ∧
      next =
        (receivers.data.flush
          (receivers.index.flush world).2).2 := by
  rcases h with ⟨segments, hStands, _⟩
  have hDrained := (hStands.idle hOpen).2
  rcases (Outlet.stands_iff_carries.mp
    hStands.outlet).holds_of_drained hDrained with
    ⟨hHolds, result, outlet, hCapture, hChannel⟩
  refine
    ⟨segments,
      hStands.trail.complete hStands.regular hStands.flags hOpen,
      hHolds, ?_⟩
  unfold ContainerWriter.close at hClose
  rw [Step.perform_bind_of_ok (perform_current writer world),
    if_neg hOpen] at hClose
  rcases Step.ok_of_perform_bind hClose with
    ⟨_, ⟨middle, w⟩, hFirst, hLast⟩
  cases (perform_onOutlet hCapture).symm.trans hFirst
  have hWorld := congrArg (fun outcome => outcome.2.2) hLast
  rw [← hChannel]
  exact hWorld.symm

/- An open member is finished first. -/
theorem Keeps.close_of_ok
    (h :
      writer.Keeps receivers codec fields world true false kept)
    (hClose :
      ContainerWriter.close.perform (writer, world) =
        (.ok (), writer', next)) :
    ∃ segments before,
      Complete segments ∧
      receivers.Holds before (layout segments)
        ((offsets 0 segments).flatMap FrameIndex.encodeOffset) ∧
      next =
        (receivers.data.flush
          (receivers.index.flush before).2).2 := by
  by_cases hOpen : writer.stage = .opened
  · unfold ContainerWriter.close at hClose
    rw [Step.perform_bind_of_ok (perform_current writer world),
      if_pos hOpen] at hClose
    rcases Step.ok_of_perform_bind hClose with
      ⟨n, ⟨finished, middle⟩, hFinish, hRest⟩
    rcases h.finish_of_ok hFinish with ⟨hKeeps, hStage⟩
    have hIdle : finished.stage ≠ .opened := by
      rw [hStage]
      simp
    have hAgain :
        ContainerWriter.close.perform (finished, middle) =
          (.ok (), writer', next) := by
      unfold ContainerWriter.close
      rw [Step.perform_bind_of_ok
        (perform_current finished middle), if_neg hIdle]
      exact hRest
    rcases hKeeps.close_of_idle hIdle hAgain with
      ⟨segments, hClosed⟩
    exact ⟨segments, middle, hClosed⟩
  · rcases h.close_of_idle hOpen hClose with ⟨segments, hClosed⟩
    exact ⟨segments, world, hClosed⟩

end ContainerWriter

------------------------------------------------------------
-- Raw Writers
------------------------------------------------------------

namespace RawWriter

variable
  {codec : Codec} {blockSize : Nat}
  {writer writer' : RawWriter ω} {world next : ω}
  {captured : Bool} {kept : Bytes}

theorem Keeps.writeAll_of_ok
    (h :
      Keeps receivers codec blockSize captured writer world kept)
    {pieces : List Bytes}
    (hWrite :
      (FrameWriter.writeAll pieces).perform (writer, world) =
        (.ok (), writer', next)) :
    ∃ kept',
      Keeps receivers codec blockSize captured writer' next
        kept' := by
  induction pieces generalizing writer world kept with
  | nil =>
    cases hWrite
    exact ⟨kept, h⟩
  | cons piece pieces ih =>
    rcases Step.ok_of_perform_bind hWrite with
      ⟨_, ⟨middle, w⟩, hPiece, hRest⟩
    rcases h.write piece with
      ⟨result, after, w', taken, hPerform, hKeeps, _⟩
    cases hPerform.symm.trans hPiece
    exact ih hKeeps hRest

/-
  A flush that succeeds ends with one of the channel. Before
  it, the positions of all frames are with the index.
-/
theorem Keeps.flush_of_ok
    (h :
      Keeps receivers codec blockSize true writer world kept)
    (hFlush :
      RawWriter.flush.perform (writer, world) =
        (.ok (), writer', next)) :
    ∃ contents before,
      writer'.Stands receivers codec blockSize next true
        contents ∧
      writer'.outlet.Drained ∧
      receivers.Holds before (RawStream.layout contents)
        ((RawStream.offsets 0 contents).flatMap
          FrameIndex.encodeOffset) ∧
      next = (receivers.data.flush before).2 := by
  unfold RawWriter.flush at hFlush
  rcases Step.ok_of_perform_bind hFlush with
    ⟨_, ⟨flushed, w⟩, hFrames, hOutlet⟩
  rcases h.flushFrames with
    ⟨result, after, w', hPerform, contents, hStands, _⟩
  cases hPerform.symm.trans hFrames
  rcases hStands.outlet.flushCapture with
    ⟨outlet, before, hCapture, hCarries, hDrained⟩
  rcases hCarries.flushChannel with
    ⟨result, last, hChannel, hAfter, _, _⟩
  have hBoth :
      Outlet.flush.perform (flushed.outlet, w) =
        (result, outlet, last) := by
    rw [Outlet.flush, Step.perform_bind_of_ok hCapture, hChannel]
  cases (perform_onOutlet hBoth).symm.trans hOutlet
  have hWorld :=
    congrArg (fun outcome => outcome.2.2) hChannel
  refine
    ⟨contents, before, { hStands with outlet := hAfter },
      hDrained, (hCarries.holds_of_drained hDrained).1, ?_⟩
  rw [← hCarries.channel]
  exact hWorld.symm

/-
  A close flushes the stream, and after it the index once
  more.
-/
theorem Keeps.close_of_ok
    (h :
      Keeps receivers codec blockSize true writer world kept)
    (hClose :
      RawWriter.close.perform (writer, world) =
        (.ok (), writer', next)) :
    ∃ contents before,
      (∀ content ∈ contents,
        content.Fits ∧
          codec.MakesWithin
            (blockSize + codec.overhead blockSize) content) ∧
      receivers.Holds before (RawStream.layout contents)
        ((RawStream.offsets 0 contents).flatMap
          FrameIndex.encodeOffset) ∧
      next =
        (receivers.index.flush
          (receivers.data.flush before).2).2 := by
  unfold RawWriter.close RawWriter.finish at hClose
  rcases Step.ok_of_perform_bind hClose with
    ⟨_, ⟨finished, w⟩, hFinish, hLast⟩
  rcases Step.ok_of_perform_bind hFinish with
    ⟨_, ⟨flushed, w'⟩, hFlush, hCount⟩
  cases hCount
  rcases h.flush_of_ok hFlush with
    ⟨contents, before, hStands, hDrained, hHolds, rfl⟩
  rcases hStands.outlet.holds_of_drained hDrained with
    ⟨_, result, outlet, hCapture, _⟩
  cases (perform_onOutlet hCapture).symm.trans hLast
  exact ⟨contents, before, hStands.made, hHolds, rfl⟩

end RawWriter

end SplitStream
