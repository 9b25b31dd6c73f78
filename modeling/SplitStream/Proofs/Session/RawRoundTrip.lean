import Mathlib
import SplitStream.Proofs.Codec.Lossless
import SplitStream.Proofs.Raw.Reading
import SplitStream.Proofs.Scan.RawRounds
import SplitStream.Proofs.Writer.RawSessions

/-
  Writing and reading of raw streams. A raw stream has no
  terminator, so each state of a writer that holds nothing
  over is a whole stream: it is read to a clean end, it is
  not taken for a container, and a scan of it finds what a
  capture has recorded.

  Main declarations:
    * `RawReader.readable_of_makes`
    * `RawSession.reach`
    * `Outlet.Recorded`
    * `RawSession.RoundTrips`
    * `RawSession.roundTrips_at_rest`
-/

------------------------------------------------------------
-- Readable Frames
------------------------------------------------------------

namespace SplitStream

/- What a writer makes in a room that the reader allows. -/
theorem RawReader.readable_of_makes
    {codec : Codec}
    {room : Nat}
    {content : PackedBlock}
    (hCodec : codec.Faithful)
    (hRoom : room ≤ longestPayload codec)
    (hFits : content.Fits)
    (hMakes : codec.MakesWithin room content) :
    Readable codec content := by
  have hLongest := Nat.le_trans hMakes.length_le hRoom
  have hBoth := Nat.le_min.mp hLongest
  have hWord := Bytes.wordCount_pos 4
  exact
    { fits := ⟨hFits.block_le, by omega⟩
      bound_le := hBoth.1
      restores := hMakes.restores hCodec }

/-
  A writer that holds nothing over has laid out frames with
  all of its data, and a reader can decode each of them.
-/
theorem RawWriter.Keeps.at_rest
    {ω : Type}
    {receivers : Receivers ω}
    {codec : Codec}
    {blockSize : Nat}
    {captured : Bool}
    {writer : RawWriter ω}
    {world : ω}
    {kept : Bytes}
    (h : Keeps receivers codec blockSize captured writer world kept)
    (hCodec : codec.Faithful)
    (hRoom :
      blockSize + codec.overhead blockSize ≤
        RawReader.longestPayload codec)
    (hPending : FrameWriter.pending writer = 0) :
    ∃ contents,
      writer.Stands receivers codec blockSize world captured
        contents ∧
      RawStream.data contents = kept ∧
      ∀ content ∈ contents, RawReader.Readable codec content := by
  rcases h with ⟨contents, hStands, hKept⟩
  have hHeld : writer.regrouper.held.toBytes = [] :=
    Tape.toBytes_eq_nil hPending
  rw [hHeld, List.append_nil] at hKept
  refine ⟨contents, hStands, hKept, ?_⟩
  intro content hContent
  rcases hStands.made content hContent with ⟨hFits, hMakes⟩
  exact RawReader.readable_of_makes hCodec hRoom hFits hMakes

------------------------------------------------------------
-- Recorded Offsets
------------------------------------------------------------

/-
  The capture of an outlet, if there is one, has recorded the
  offsets of an index: some have been written to a channel,
  which has the given bytes, and the others are in the batch.
-/
def Outlet.Recorded
    {ω : Type}
    (outlet : Outlet ω)
    (written : Bytes)
    (index : FrameIndex) : Prop :=
  ∀ capture ∈ outlet.capture,
    written ++ capture.batch.toBytes = index.toBytes ∧
      capture.entries = index.count ∧
      capture.last = index.offsets.getLast?

/- A capture has recorded where the frames stand. -/
theorem Outlet.Carries.recorded
    {data index : Conduct}
    {hData : data.Accepting}
    {hIndex : index.Reliable}
    {outlet : Outlet SinkPair}
    {sinks : SinkPair}
    {captured : Bool}
    {bytes : Bytes}
    {contents : List PackedBlock}
    (h :
      outlet.Carries (SinkPair.receivers hData hIndex) sinks
        captured bytes (RawStream.offsets 0 contents)) :
    sinks.data.contents = bytes ∧
      outlet.Recorded sinks.index.contents
        (.ofContents contents) := by
  rcases h.holds with ⟨indexed, hHolds, _, hRecords⟩
  refine ⟨hHolds.data.contents, ?_⟩
  intro capture hCapture
  have hRecord := hRecords capture hCapture
  rw [hHolds.index.contents]
  exact ⟨hRecord.layout, hRecord.entries, hRecord.last⟩

------------------------------------------------------------
-- Whole Runs
------------------------------------------------------------

namespace RawSession

/- The session as far as the calls before its index. -/
def pause
    (session : RawSession) :
    Except Error (Course RawWriter SinkPair) := do
  let opened ← session.start
  return opened.run session.before

/- A point of the session, with an index or before it. -/
def reach
    (session : RawSession)
    (indexed : Bool) :
    Except Error (Course RawWriter SinkPair) :=
  if indexed then session.play else session.pause

/-
  What a session has written is a whole raw stream: a reader
  collects what was kept, in as many frames as were written;
  the stream is recognised; and a scan finds the index that
  has been recorded.
-/
structure RoundTrips
    (session : RawSession)
    (course : Course RawWriter SinkPair)
    (index : FrameIndex) : Prop where
  reads :
    RawReader.ReadsTo session.codec course.world.data.contents
      course.kept (FrameWriter.frames course.writer)
  detected : Scan.Detects course.world.data.contents .raw
  found :
    Scan.Finds Scan.raw course.world.data.contents index ∧
      Scan.Finds Scan.stream course.world.data.contents index
  count : index.count = FrameWriter.frames course.writer
  recorded :
    course.writer.outlet.Recorded course.world.index.contents
      index

variable
  {session : RawSession} {course : Course RawWriter SinkPair}
  {indexed : Bool}

/- A session keeps its data at every point. -/
theorem keeps_of_reach
    (hData : session.data.Accepting)
    (hIndex : session.index.Reliable)
    (hReach : session.reach indexed = .ok course) :
    RawWriter.Keeps (SinkPair.receivers hData hIndex)
      session.codec session.blockSize indexed course.writer
      course.world course.kept := by
  cases indexed with
  | true => exact play_spec hData hIndex hReach
  | false =>
    change session.pause = .ok course at hReach
    rcases ok_of_bind hReach with ⟨opened, hStart, hRun⟩
    cases hRun
    exact
      Course.run_kept (fun _ _ _ => RawWriter.Keeps.call) opened
        session.before (start_spec hData hIndex hStart)

/-
  Wherever nothing is held over, the sink has a whole raw
  stream with the data that was kept. The codec unpacks what
  it has packed, and the room that the writer gives it can be
  told in a word and is allowed by the reader. Calls may have
  failed by the codec.
-/
theorem roundTrips_at_rest
    (hData : session.data.Reliable)
    (hIndex : session.index.Reliable)
    (hCodec : session.codec.Faithful)
    (hBound :
      session.blockSize +
          session.codec.overhead session.blockSize ≤
        maxBlockSize + session.codec.overhead maxBlockSize)
    (hWord :
      session.blockSize +
          session.codec.overhead session.blockSize <
        2 ^ 32)
    (hReach : session.reach indexed = .ok course)
    (hPending : FrameWriter.pending course.writer = 0) :
    course.writer.outlet.capture.isSome = indexed ∧
      ∃ index, session.RoundTrips course index := by
  have hKeeps := keeps_of_reach hData.1 hIndex hReach
  have hRoom :
      session.blockSize +
          session.codec.overhead session.blockSize ≤
        RawReader.longestPayload session.codec := by
    have hCount : Bytes.wordCount 4 = 2 ^ 32 := by decide
    exact Nat.le_min.mpr ⟨hBound, by omega⟩
  rcases hKeeps.at_rest hCodec hRoom hPending with
    ⟨contents, hStands, hKept, hReadable⟩
  rcases hStands.outlet.recorded with ⟨hReceived, hRecorded⟩
  have hFrames :
      FrameWriter.frames course.writer = contents.length := by
    rw [← RawStream.length_offsets 0 contents]
    exact hStands.outlet.frames
  have hReads := RawReader.readsTo_of_contents hReadable
  rw [hKept, ← hReceived, ← hFrames] at hReads
  rcases Scan.finds_of_contents
    (fun content hContent => (hReadable content hContent).fits)
    with ⟨hDetects, hFinds⟩
  rw [← hReceived] at hDetects hFinds
  refine ⟨hStands.outlet.captured, .ofContents contents, ?_⟩
  exact
    { reads := hReads
      detected := hDetects
      found := hFinds
      count := by
        rw [hFrames]
        exact RawStream.length_offsets 0 contents
      recorded := hRecorded }

/-
  Three frames. The index is attached when a byte is held
  over; the first flush is refused by the codec, and a reset
  drops two bytes.
-/
def hesitantFrames : RawSession where
  codec := Codec.runLength.refusingAt 1
  blockSize := 4
  data := .willing
  index := .willing
  before := [.write [7]]
  after :=
    [.write [7, 7, 7, 8], .flush, .flush,
      .writeRange [0, 1, 2] 1 2, .reset, .write [5, 5, 5, 5]]
  closed := false

theorem roundTrips_at_rest_of_hesitantFrames :
    ∃ course index,
      hesitantFrames.reach true = .ok course ∧
      (course.log.filter fun call => !call.2.isOk).length = 1 ∧
      FrameWriter.pending course.writer = 0 ∧
      FrameWriter.frames course.writer = 3 ∧
      course.kept = [7, 7, 7, 7, 8, 5, 5, 5, 5] ∧
      course.writer.outlet.capture.isSome = true ∧
      hesitantFrames.RoundTrips course index := by
  have hEnd :
      (hesitantFrames.reach true).map
          (fun course =>
            ((course.log.filter fun call =>
                !call.2.isOk).length,
              FrameWriter.pending course.writer,
              FrameWriter.frames course.writer,
              course.kept)) =
        .ok (1, 0, 3, [7, 7, 7, 7, 8, 5, 5, 5, 5]) := by
    cbv
  rcases ok_of_map hEnd with ⟨course, hReach, hView⟩
  simp only [Prod.mk.injEq] at hView
  rcases hView with ⟨hFailed, hPending, hFrames, hKept⟩
  have hCodec : hesitantFrames.codec.Faithful :=
    Codec.runLength_faithful.refusingAt 1
  rcases roundTrips_at_rest Conduct.reliable_willing
    Conduct.reliable_willing hCodec (by decide +kernel)
    (by decide +kernel) hReach hPending with
    ⟨hCaptured, index, hRoundTrips⟩
  exact
    ⟨course, index, hReach, hFailed, hPending, hFrames, hKept,
      hCaptured, hRoundTrips⟩

end RawSession

end SplitStream
