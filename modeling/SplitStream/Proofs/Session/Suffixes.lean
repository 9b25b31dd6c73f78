import SplitStream.Proofs.Codec.Lossless
import SplitStream.Proofs.Reader.Suffixes
import SplitStream.Proofs.Session.RawRoundTrip
import SplitStream.Proofs.Session.RoundTrip

/-
  Splits of what a single writer has written, with the index
  that it has captured. They work at all positions: a writer
  records the same checksums in all of its members, so the
  first header tells how to read each of them.

  Main declarations:
    * `WriterSession.Divided`
    * `RawSession.Divided`
    * `Split.suffixes_of_sessions`
-/

------------------------------------------------------------
-- Containers
------------------------------------------------------------

namespace SplitStream

namespace WriterSession

open Segment

variable
  {session : WriterSession}
  {course : Course ContainerWriter SinkPair}

/-
  The container of a session is divided into segments, whose
  frames have the data that was kept. The index sink has the
  index of these frames, by which they are split.
-/
structure Divided
    (session : WriterSession)
    (course : Course ContainerWriter SinkPair)
    (segments : List Segment)
    (index : FrameIndex) : Prop where
  complete : Complete segments
  received : layout segments = course.world.data.contents
  kept : Segment.contents segments = course.kept
  frames :
    Segment.frames segments = FrameWriter.frames course.writer
  locates : index.Locates segments
  stored :
    index.StoredAs course.world.index.contents
      course.world.data.contents.length
  suffixes :
    Split.Suffixes (Split.openContainer session.codec index)
      ((fun reader => reader.follow true) <$>
        ContainerReader.start session.codec)
      course.world.data.contents index
      (Segment.blocks segments)

/-
  A container is divided if each of its members is whole: if
  no finish has failed by the sink.
-/
theorem divided_of_play
    (hData : session.data.Accepting)
    (hIndex : session.index.Reliable)
    (hCodec : session.codec.Lossless)
    (hIndexed : session.indexed = true)
    (hPlay : session.play = .ok course)
    (hWhole : session.data.Reliable ∨ course.torn = false) :
    ∃ segments index, session.Divided course segments index := by
  rcases outcome_of_play hData hIndex hPlay with
    ⟨segments, hOutcome, hReliable⟩
  have hComplete :=
    hOutcome.complete (hWhole.elim hReliable id)
  have hSuffixes :=
    Split.suffixes_of_complete hComplete hOutcome.uniform
      (hOutcome.readable hCodec) Header.take_nil_ne_magic
  rw [List.append_nil, ← hOutcome.received] at hSuffixes
  refine ⟨segments, .ofSegments segments, ?_⟩
  exact
    { complete := hComplete
      received := hOutcome.received.symm
      kept := hOutcome.kept.symm
      frames := hOutcome.frames.symm
      locates := FrameIndex.locates_ofSegments segments
      stored := by
        apply FrameIndex.storedAs_of_lt
          (hOutcome.indexed hIndexed)
        intro offset hOffset
        rw [hOutcome.received, ← Nat.zero_add (layout _).length]
        exact lt_of_mem_offsets hOffset
      suffixes := hSuffixes }

/-
  Two members with a packed frame and two stored ones. The
  close writes the last frame.
-/
def splitMembers : WriterSession where
  codec := .runLength
  options :=
    { WriterOptions.standard with blockSize := 4 }
  clock := 0
  data := .willing
  index := .willing
  before := []
  indexed := true
  after :=
    [.write [1, 1, 1, 1, 2], .flush, .finish, .reset, .write [3]]
  ending := .close

end WriterSession

------------------------------------------------------------
-- Raw Streams
------------------------------------------------------------

namespace RawSession

open RawStream

variable
  {session : RawSession} {course : Course RawWriter SinkPair}
  {contents : List PackedBlock}

/-
  The raw stream of a session is divided into frames, which
  have the data that was kept. The index sink and the batch
  of the capture have the index of these frames, by which
  they are split.
-/
structure Divided
    (session : RawSession)
    (course : Course RawWriter SinkPair)
    (contents : List PackedBlock)
    (index : FrameIndex) : Prop where
  received : layout contents = course.world.data.contents
  kept : RawStream.data contents = course.kept
  frames : contents.length = FrameWriter.frames course.writer
  locates : index.offsets = offsets 0 contents
  stored :
    ∃ capture,
      course.writer.outlet.capture = some capture ∧
      index.StoredAs
        (course.world.index.contents ++ capture.batch.toBytes)
        course.world.data.contents.length
  suffixes :
    Split.Suffixes (Split.openRaw session.codec index)
      (do return RawReader.new (← get) session.codec)
      course.world.data.contents index
      (contents.map PackedBlock.block)

/- The frames can be read if the reader allows the room. -/
theorem Outcome.readable
    (h : session.Outcome course contents)
    (hCodec : session.codec.Faithful)
    (hRoom :
      session.blockSize +
          session.codec.overhead session.blockSize ≤
        RawReader.longestPayload session.codec) :
    ∀ content ∈ contents,
      RawReader.Readable session.codec content := by
  intro content hContent
  rcases h.made content hContent with ⟨hFits, hMakes⟩
  exact RawReader.readable_of_makes hCodec hRoom hFits hMakes

/- A raw stream is divided if nothing is held over. -/
theorem divided_of_play
    (hData : session.data.Accepting)
    (hIndex : session.index.Reliable)
    (hCodec : session.codec.Faithful)
    (hRoom :
      session.blockSize +
          session.codec.overhead session.blockSize ≤
        RawReader.longestPayload session.codec)
    (hPlay : session.play = .ok course)
    (hPending : FrameWriter.pending course.writer = 0) :
    ∃ contents index, session.Divided course contents index := by
  rcases outcome_of_play hData hIndex hPlay with
    ⟨contents, hOutcome⟩
  have hHeld : course.writer.regrouper.held.toBytes = [] :=
    Tape.toBytes_eq_nil hPending
  have hKept := hOutcome.kept
  rw [hHeld, List.append_nil] at hKept
  have hSuffixes :=
    Split.suffixes_of_contents (hOutcome.readable hCodec hRoom)
  rw [← hOutcome.received] at hSuffixes
  rcases hOutcome.indexed with ⟨capture, hCapture, hLayout⟩
  refine ⟨contents, .ofContents contents, ?_⟩
  exact
    { received := hOutcome.received.symm
      kept := hKept
      frames := hOutcome.frames.symm
      locates := rfl
      stored := by
        refine ⟨capture, hCapture, ?_⟩
        apply FrameIndex.storedAs_of_lt hLayout
        intro offset hOffset
        rw [hOutcome.received, ← Nat.zero_add (layout _).length]
        exact lt_of_mem_offsets hOffset
      suffixes := hSuffixes }

/-
  Three frames, one of them packed into fewer bytes, and two
  into more.
-/
def splitFrames : RawSession where
  codec := .runLength
  blockSize := 4
  data := .willing
  index := .willing
  before := []
  after := [.write [1, 1, 1, 1, 2], .flush, .write [3], .flush]
  closed := false

end RawSession

------------------------------------------------------------
-- Both Kinds Of Streams
------------------------------------------------------------

namespace Split

/-
  Every split of what a writer has written, by the index that
  it has captured, delivers the blocks from the frame on that
  covers its position. In a container, the members must be
  whole; in a raw stream, nothing may be held over, and the
  reader must allow the room that the writer gives its codec.
-/
theorem suffixes_of_sessions :
    (∀ (session : WriterSession)
        (course : Course ContainerWriter SinkPair),
      session.data.Accepting →
      session.index.Reliable →
      session.codec.Lossless →
      session.indexed = true →
      session.play = .ok course →
      session.data.Reliable ∨ course.torn = false →
        ∃ segments index,
          session.Divided course segments index) ∧
    ∀ (session : RawSession)
        (course : Course RawWriter SinkPair),
      session.data.Accepting →
      session.index.Reliable →
      session.codec.Faithful →
      session.blockSize +
          session.codec.overhead session.blockSize ≤
        RawReader.longestPayload session.codec →
      session.play = .ok course →
      FrameWriter.pending course.writer = 0 →
        ∃ contents index,
          session.Divided course contents index := by
  constructor
  · intro session course hData hIndex hCodec hIndexed hPlay
    exact
      WriterSession.divided_of_play hData hIndex hCodec hIndexed
        hPlay
  · intro session course hData hIndex hCodec hRoom hPlay
    exact
      RawSession.divided_of_play hData hIndex hCodec hRoom hPlay

/-
  The two sessions come to three frames each, and both
  streams are split by their indexes.
-/
theorem suffixes_of_sessions_of_split :
    (∃ course segments index,
      WriterSession.splitMembers.data.Reliable ∧
      WriterSession.splitMembers.index.Reliable ∧
      WriterSession.splitMembers.codec.Lossless ∧
      WriterSession.splitMembers.play = .ok course ∧
      FrameWriter.frames course.writer = 3 ∧
      course.kept = [1, 1, 1, 1, 2, 3] ∧
      WriterSession.splitMembers.Divided course segments
        index) ∧
    ∃ course contents index,
      RawSession.splitFrames.data.Accepting ∧
      RawSession.splitFrames.index.Reliable ∧
      RawSession.splitFrames.codec.Faithful ∧
      RawSession.splitFrames.play = .ok course ∧
      FrameWriter.pending course.writer = 0 ∧
      FrameWriter.frames course.writer = 3 ∧
      course.kept = [1, 1, 1, 1, 2, 3] ∧
      RawSession.splitFrames.Divided course contents index := by
  have hWilling := Conduct.reliable_willing
  constructor
  · have hEnd :
        WriterSession.splitMembers.play.map
            (fun course =>
              (FrameWriter.frames course.writer, course.kept)) =
          .ok (3, [1, 1, 1, 1, 2, 3]) := by
      cbv
    rcases ok_of_map hEnd with ⟨course, hPlay, hView⟩
    rcases Prod.mk.inj hView with ⟨hFrames, hKept⟩
    rcases suffixes_of_sessions.1 .splitMembers course hWilling.1
      hWilling Codec.runLength_lossless rfl hPlay (.inl hWilling)
      with ⟨segments, index, hDivided⟩
    exact
      ⟨course, segments, index, hWilling, hWilling,
        Codec.runLength_lossless, hPlay, hFrames, hKept,
        hDivided⟩
  · have hEnd :
        RawSession.splitFrames.play.map
            (fun course =>
              (FrameWriter.pending course.writer,
                FrameWriter.frames course.writer,
                course.kept)) =
          .ok (0, 3, [1, 1, 1, 1, 2, 3]) := by
      cbv
    rcases ok_of_map hEnd with ⟨course, hPlay, hView⟩
    rcases Prod.mk.inj hView with ⟨hPending, hRest⟩
    rcases Prod.mk.inj hRest with ⟨hFrames, hKept⟩
    rcases suffixes_of_sessions.2 .splitFrames course hWilling.1
      hWilling Codec.runLength_faithful (by decide +kernel) hPlay
      hPending with ⟨contents, index, hDivided⟩
    exact
      ⟨course, contents, index, hWilling.1, hWilling,
        Codec.runLength_faithful, hPlay, hPending, hFrames,
        hKept, hDivided⟩

end Split

end SplitStream
