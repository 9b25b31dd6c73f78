import SplitStream.Proofs.Raw.Truncation
import SplitStream.Proofs.Session.Outcome
import SplitStream.Proofs.Session.RawRoundTrip

/-
  What is left of a writer's stream when its end is lost. All
  frames that are wholly there are still delivered. The loss
  itself is noticed, except where the bytes that are left are
  a whole stream again: shortly behind a terminator in a
  container, and behind any frame in a raw stream.

  Main declarations:
    * `WriterSession.Outlasts`
    * `RawSession.Outlasts`
    * `Scan.copesWith_every_cut`
-/

------------------------------------------------------------
-- Containers
------------------------------------------------------------

namespace SplitStream

namespace WriterSession

open Segment

variable
  {session : WriterSession}
  {course : Course ContainerWriter SinkPair}

/-
  The container of a session consists of segments with the
  data that was kept. Readers and scans cope with whatever
  first bytes of it are there, in whatever pieces they come.
-/
structure Outlasts
    (session : WriterSession)
    (course : Course ContainerWriter SinkPair)
    (segments : List Segment) : Prop where
  complete : Complete segments
  received : layout segments = course.world.data.contents
  kept : Segment.contents segments = course.kept
  frames :
    Segment.frames segments = FrameWriter.frames course.writer
  copes :
    ∀ (first lost : Bytes) (schedule : Schedule),
      first ++ lost = course.world.data.contents →
        Scan.CopesWithContainer session.codec segments
          (.atPosition first 0 none schedule)

/- Whole members stay readable up to a cut. -/
theorem outlasts_of_play
    (hData : session.data.Accepting)
    (hIndex : session.index.Reliable)
    (hCodec : session.codec.Lossless)
    (hPlay : session.play = .ok course)
    (hWhole : session.data.Reliable ∨ course.torn = false) :
    ∃ segments, session.Outlasts course segments := by
  rcases outcome_of_play hData hIndex hPlay with
    ⟨segments, hOutcome, hReliable⟩
  have hComplete :=
    hOutcome.complete (hWhole.elim hReliable id)
  refine ⟨segments, ?_⟩
  exact
    { complete := hComplete
      received := hOutcome.received.symm
      kept := hOutcome.kept.symm
      frames := hOutcome.frames.symm
      copes := by
        intro first lost schedule hCut
        rw [hOutcome.received] at hCut
        exact
          Scan.copesWith_of_complete hComplete
            (hOutcome.readable hCodec) rfl hCut }

/-
  Two members with a packed frame, a stored one, and a packed
  one. The codec refuses a block once.
-/
def lostMembers : WriterSession where
  codec := Codec.runLength.refusingAt 1
  options :=
    { WriterOptions.standard with blockSize := 4 }
  clock := 0
  data := .willing
  index := .willing
  before := []
  indexed := false
  after :=
    [.write [1, 1, 1, 1, 2], .flush, .flush, .finish, .reset,
      .write [3, 3, 3, 3]]
  ending := .close

end WriterSession

------------------------------------------------------------
-- Raw Streams
------------------------------------------------------------

namespace RawSession

open RawStream

variable
  {session : RawSession} {course : Course RawWriter SinkPair}
  {indexed : Bool}

/-
  The raw stream of a session consists of frames with the data
  that was kept, and readers and scans cope with whatever
  first bytes of it are there.
-/
structure Outlasts
    (session : RawSession)
    (course : Course RawWriter SinkPair)
    (contents : List PackedBlock) : Prop where
  received : layout contents = course.world.data.contents
  kept : RawStream.data contents = course.kept
  frames : contents.length = FrameWriter.frames course.writer
  copes :
    ∀ (first lost : Bytes) (schedule : Schedule),
      first ++ lost = course.world.data.contents →
        Scan.CopesWithRaw session.codec contents
          (.atPosition first 0 none schedule)

/- Wherever nothing is held over, frames stay readable. -/
theorem outlasts_of_reach
    (hData : session.data.Accepting)
    (hIndex : session.index.Reliable)
    (hCodec : session.codec.Faithful)
    (hRoom :
      session.blockSize +
          session.codec.overhead session.blockSize ≤
        RawReader.longestPayload session.codec)
    (hReach : session.reach indexed = .ok course)
    (hPending : FrameWriter.pending course.writer = 0) :
    ∃ contents, session.Outlasts course contents := by
  have hKeeps := keeps_of_reach hData hIndex hReach
  rcases hKeeps.at_rest hCodec hRoom hPending with
    ⟨contents, hStands, hKept, hReadable⟩
  rcases hStands.outlet.recorded with ⟨hReceived, _⟩
  have hFrames := hStands.outlet.frames
  rw [RawStream.length_offsets 0 contents] at hFrames
  refine ⟨contents, ?_⟩
  exact
    { received := hReceived.symm
      kept := hKept
      frames := hFrames.symm
      copes := by
        intro first lost schedule hCut
        rw [hReceived] at hCut
        exact Scan.copesWith_of_contents hReadable rfl hCut }

end RawSession

------------------------------------------------------------
-- Both Kinds Of Streams
------------------------------------------------------------

namespace Scan

/-
  However many bytes of a writer's stream are left, all frames
  that are wholly there are delivered. A container ends
  cleanly up to eight bytes behind a terminator, a raw stream
  behind a frame; any other cut is told as a truncation, by
  readers and scans alike. The members of a container must be
  whole, and the writer of a raw stream must hold nothing
  over.
-/
theorem copesWith_every_cut :
    (∀ (session : WriterSession)
        (course : Course ContainerWriter SinkPair),
      session.data.Accepting →
      session.index.Reliable →
      session.codec.Lossless →
      session.play = .ok course →
      session.data.Reliable ∨ course.torn = false →
        ∃ segments, session.Outlasts course segments) ∧
    ∀ (session : RawSession)
        (course : Course RawWriter SinkPair)
        (indexed : Bool),
      session.data.Accepting →
      session.index.Reliable →
      session.codec.Faithful →
      session.blockSize +
          session.codec.overhead session.blockSize ≤
        RawReader.longestPayload session.codec →
      session.reach indexed = .ok course →
      FrameWriter.pending course.writer = 0 →
        ∃ contents, session.Outlasts course contents := by
  constructor
  · intro session course hData hIndex hCodec hPlay hWhole
    exact
      WriterSession.outlasts_of_play hData hIndex hCodec hPlay
        hWhole
  · intro session course indexed hData hIndex hCodec hRoom hReach
      hPending
    exact
      RawSession.outlasts_of_reach hData hIndex hCodec hRoom
        hReach hPending

/- Three frames of each kind, and a byte that is lost. -/
theorem copesWith_every_cut_of_lost :
    (∃ course segments,
      WriterSession.lostMembers.data.Reliable ∧
      WriterSession.lostMembers.index.Reliable ∧
      WriterSession.lostMembers.codec.Lossless ∧
      WriterSession.lostMembers.play = .ok course ∧
      FrameWriter.frames course.writer = 3 ∧
      course.kept = [1, 1, 1, 1, 2, 3, 3, 3, 3] ∧
      WriterSession.lostMembers.Outlasts course segments ∧
      CopesWithContainer WriterSession.lostMembers.codec segments
        (.ofBytes course.world.data.contents.dropLast)) ∧
    ∃ course contents,
      RawSession.hesitantFrames.data.Accepting ∧
      RawSession.hesitantFrames.index.Reliable ∧
      RawSession.hesitantFrames.codec.Faithful ∧
      RawSession.hesitantFrames.reach true = .ok course ∧
      FrameWriter.pending course.writer = 0 ∧
      FrameWriter.frames course.writer = 3 ∧
      course.kept = [7, 7, 7, 7, 8, 5, 5, 5, 5] ∧
      RawSession.hesitantFrames.Outlasts course contents ∧
      CopesWithRaw RawSession.hesitantFrames.codec contents
        (.ofBytes course.world.data.contents.dropLast) := by
  have hWilling := Conduct.reliable_willing
  have hCodec : (Codec.runLength.refusingAt 1).Faithful :=
    Codec.runLength_faithful.refusingAt 1
  constructor
  · have hEnd :
        WriterSession.lostMembers.play.map
            (fun course =>
              (FrameWriter.frames course.writer, course.kept,
                course.world.data.contents.isEmpty)) =
          .ok (3, [1, 1, 1, 1, 2, 3, 3, 3, 3], false) := by
      cbv
    rcases ok_of_map hEnd with ⟨course, hPlay, hView⟩
    simp only [Prod.mk.injEq] at hView
    rcases hView with ⟨hFrames, hKept, hSome⟩
    rcases copesWith_every_cut.1 .lostMembers course hWilling.1
      hWilling hCodec.lossless hPlay (.inl hWilling) with
      ⟨segments, hOutlasts⟩
    have hCut :=
      List.dropLast_concat_getLast
        (List.isEmpty_eq_false_iff.mp hSome)
    exact
      ⟨course, segments, hWilling, hWilling, hCodec.lossless,
        hPlay, hFrames, hKept, hOutlasts,
        hOutlasts.copes _ _ .prompt hCut⟩
  · have hEnd :
        (RawSession.hesitantFrames.reach true).map
            (fun course =>
              (FrameWriter.pending course.writer,
                FrameWriter.frames course.writer,
                course.kept,
                course.world.data.contents.isEmpty)) =
          .ok (0, 3, [7, 7, 7, 7, 8, 5, 5, 5, 5], false) := by
      cbv
    rcases ok_of_map hEnd with ⟨course, hReach, hView⟩
    simp only [Prod.mk.injEq] at hView
    rcases hView with ⟨hPending, hFrames, hKept, hSome⟩
    rcases copesWith_every_cut.2 .hesitantFrames course true
      hWilling.1 hWilling hCodec (by decide +kernel) hReach
      hPending with ⟨contents, hOutlasts⟩
    have hCut :=
      List.dropLast_concat_getLast
        (List.isEmpty_eq_false_iff.mp hSome)
    exact
      ⟨course, contents, hWilling.1, hWilling, hCodec, hReach,
        hPending, hFrames, hKept, hOutlasts,
        hOutlasts.copes _ _ .prompt hCut⟩

end Scan

end SplitStream
