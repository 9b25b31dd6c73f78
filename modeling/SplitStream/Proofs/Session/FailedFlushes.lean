import Mathlib
import SplitStream.Proofs.Container.Parsing
import SplitStream.Proofs.Session.RoundTrip

/-
  Sessions over a sink that takes every byte but may fail to
  flush. A flush that fails changes nothing of the container
  unless it belongs to a finish: then the terminator is in
  the sink, the member stays open, and the bytes behind the
  terminator belong to no member.

  Main declarations:
    * `WriterSession.Outcome.tail_of_torn`
    * `WriterSession.Outcome.not_complete_of_torn`
    * `WriterSession.whole_iff`
    * `WriterSession.lost_of_finishFailed`
-/

------------------------------------------------------------
-- Torn Sessions
------------------------------------------------------------

namespace SplitStream

namespace WriterSession

open ContainerReader Segment

variable
  {session : WriterSession}
  {course : Course ContainerWriter SinkPair}
  {segments : List Segment}

/-
  What a torn session leaves in its sink: a container, and
  behind it bytes that are no further member.
-/
theorem Outcome.tail_of_torn
    (h : session.Outcome course segments)
    (hTorn : course.torn = true) :
    ∃ front tail,
      Complete front ∧
      course.world.data.contents = layout front ++ tail ∧
      tail ≠ [] ∧
      tail.take 9 ≠ Container.magic := by
  rcases h.torn_split hTorn with ⟨front, back, hSplit, hAt⟩
  refine
    ⟨front, layout back, hAt.complete, ?_, ?_,
      Header.take_ne_magic hAt.strange⟩
  · rw [h.received, hSplit, layout_append]
  · intro hNone
    have hLength := length_le_layout back
    rw [hNone] at hLength
    apply hAt.more (by simp)
    exact List.length_eq_zero_iff.mp (Nat.le_zero.mp hLength)

/- A torn session leaves no container in its sink. -/
theorem Outcome.not_complete_of_torn
    (h : session.Outcome course segments)
    (hTorn : course.torn = true) :
    ¬ ∃ whole,
        Complete whole ∧
        layout whole = course.world.data.contents := by
  rintro ⟨whole, hWhole, hContents⟩
  rcases h.tail_of_torn hTorn with
    ⟨front, tail, hFront, hBytes, hSome, hTail⟩
  have hSame : layout front ++ tail = layout whole ++ [] := by
    rw [List.append_nil, hContents, hBytes]
  apply hSome
  exact
    hFront.tail_unique hWhole hSame hTail
      Header.take_nil_ne_magic

/-
  The sink has whole members, and a reader delivers what was
  kept, exactly if no finish has failed by the sink. Flushes
  outside of a finish may fail at any point.
-/
theorem whole_iff
    (hData : session.data.Accepting)
    (hIndex : session.index.Reliable)
    (hCodec : session.codec.Lossless)
    (hPlay : session.play = .ok course) :
    course.torn = false ↔
      (∃ segments,
        Complete segments ∧
        layout segments = course.world.data.contents) ∧
      ReadsTo session.codec course.world.data.contents
        course.kept (FrameWriter.frames course.writer) := by
  rcases outcome_of_play hData hIndex hPlay with
    ⟨segments, hOutcome, _⟩
  constructor
  · intro hWhole
    have hComplete := hOutcome.complete hWhole
    constructor
    · exact ⟨segments, hComplete, hOutcome.received.symm⟩
    · exact hOutcome.reads hCodec hComplete
  · rintro ⟨hSegments, _⟩
    cases hTorn : course.torn with
    | false => rfl
    | true =>
      have hNone := hOutcome.not_complete_of_torn hTorn
      exact absurd hSegments hNone

------------------------------------------------------------
-- One Failed Flush
------------------------------------------------------------

/-
  Two bytes are written, one before and one behind a finish.
  The sink fails to flush at one of its turns.
-/
def failingAt
    (turn : Nat) : WriterSession where
  codec := .stored
  options := .standard
  clock := 0
  data := .failingAt turn
  index := .willing
  before := [.write [1], .flush, .finish]
  indexed := false
  after := [.reset, .write [2]]
  ending := .finish

/- A flush between the calls has failed, without harm. -/
theorem whole_iff_of_flushFailed :
    ∃ course,
      (failingAt 7).play = .ok course ∧
      (.flush, .error (.io .brokenPipe)) ∈ course.log ∧
      (∃ segments,
        Complete segments ∧
        layout segments = course.world.data.contents) ∧
      ReadsTo (failingAt 7).codec course.world.data.contents
        [1, 2] 2 := by
  have hEnd :
      (failingAt 7).play.map
          (fun course =>
            (course.torn, course.kept,
              FrameWriter.frames course.writer,
              course.log[1]?)) =
        .ok
          (false, [1, 2], 2,
            some (.flush, .error (.io .brokenPipe))) := by
    cbv
  rcases play_of_map hEnd with ⟨course, hPlay, hView⟩
  rcases Prod.mk.inj hView with ⟨hWhole, hView⟩
  rcases Prod.mk.inj hView with ⟨hKept, hView⟩
  rcases Prod.mk.inj hView with ⟨hFrames, hLog⟩
  rcases (whole_iff (Conduct.accepting_failingAt 7)
    Conduct.reliable_willing Codec.stored_lossless hPlay).mp hWhole
    with ⟨hSegments, hReads⟩
  rw [hKept, hFrames] at hReads
  exact
    ⟨course, hPlay, List.mem_of_getElem? hLog, hSegments,
      hReads⟩

/-
  A finish has failed by its flush, and the next one has
  succeeded. The byte between them is lost, and the sink has
  no container.
-/
theorem lost_of_finishFailed :
    ∃ course,
      (failingAt 9).play = .ok course ∧
      (.finish, .error (.io .brokenPipe)) ∈ course.log ∧
      course.kept = [1, 2] ∧
      (∀ n,
        ¬ ReadsTo (failingAt 9).codec
            course.world.data.contents course.kept n) ∧
      ¬ ∃ segments,
          Complete segments ∧
          layout segments = course.world.data.contents := by
  have hEnd :
      (failingAt 9).play.map
          (fun course =>
            (course.torn, course.kept, course.log[2]?,
              (followAll .stored .prompt
                course.world.data.contents).map
                fun collected => collected.bytes.toBytes)) =
        .ok
          (true, [1, 2],
            some (.finish, .error (.io .brokenPipe)),
            .ok [1]) := by
    cbv
  rcases play_of_map hEnd with ⟨course, hPlay, hView⟩
  rcases Prod.mk.inj hView with ⟨hTorn, hView⟩
  rcases Prod.mk.inj hView with ⟨hKept, hView⟩
  rcases Prod.mk.inj hView with ⟨hLog, hRead⟩
  rcases outcome_of_play (Conduct.accepting_failingAt 9)
    Conduct.reliable_willing hPlay with ⟨segments, hOutcome, _⟩
  refine
    ⟨course, hPlay, List.mem_of_getElem? hLog, hKept, ?_,
      hOutcome.not_complete_of_torn hTorn⟩
  intro n hReads
  rcases hReads .prompt with ⟨collected, hRun, _, _, hBytes, _⟩
  change followAll .stored _ _ = _ at hRun
  rw [hRun] at hRead
  have hOne : collected.bytes.toBytes = [1] :=
    Except.ok.inj hRead
  rw [hBytes, hKept] at hOne
  cases hOne

end WriterSession

end SplitStream
