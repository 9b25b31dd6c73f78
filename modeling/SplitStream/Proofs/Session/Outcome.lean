import SplitStream.Proofs.Reader.Following
import SplitStream.Proofs.Writer.Sessions

/-
  What sessions come to, seen from their sinks: the segments
  that the container consists of, the data in them, and the
  index beside them.

  Main declarations:
    * `Segment.MadeBy.readableBy`
    * `WriterSession.Outcome`
    * `WriterSession.outcome_of_play`
-/

------------------------------------------------------------
-- Made And Readable Segments
------------------------------------------------------------

namespace SplitStream

/- A codec without loss can read what it makes. -/
theorem Segment.MadeBy.readableBy
    {codec : Codec}
    {segment : Segment}
    (hMade : segment.MadeBy codec)
    (hCodec : codec.Lossless) :
    segment.ReadableBy codec := by
  cases segment with
  | header fields => exact hMade
  | frame checksums content =>
    intro hShort
    exact hMade.restores hCodec hShort
  | terminator => trivial

------------------------------------------------------------
-- Outcomes
------------------------------------------------------------

open Segment

/-
  A course of a session has ended with segments in the sink:
  their data is what was kept, and the index sink has the
  positions of their frames.
-/
structure WriterSession.Outcome
    (session : WriterSession)
    (course : Course ContainerWriter SinkPair)
    (segments : List Segment) : Prop where
  received : course.world.data.contents = layout segments
  kept : course.kept = Segment.contents segments
  frames :
    FrameWriter.frames course.writer = Segment.frames segments
  made : ∀ segment ∈ segments, segment.MadeBy session.codec
  uniform : Uniform session.options.checksums segments
  complete : course.torn = false → Complete segments
  indexed :
    session.indexed = true →
      course.world.index.contents =
        (offsets 0 segments).flatMap FrameIndex.encodeOffset
  torn_split :
    course.torn = true →
      ∃ front back,
        segments = front ++ back ∧
        Trail.TornAt .finished front back

namespace WriterSession

variable
  {session : WriterSession}
  {course : Course ContainerWriter SinkPair}
  {segments : List Segment}

theorem Outcome.readable
    (h : session.Outcome course segments)
    (hCodec : session.codec.Lossless) :
    ∀ segment ∈ segments,
      segment.ReadableBy session.codec := by
  intro segment hSegment
  exact (h.made segment hSegment).readableBy hCodec

/- A session has been played if something is seen of its end. -/
theorem play_of_map
    {α : Type}
    {view : Course ContainerWriter SinkPair → α}
    {a : α}
    (hView : session.play.map view = .ok a) :
    ∃ course, session.play = .ok course ∧ view course = a :=
  ok_of_map hView

/-
  A session that ends comes to some segments. No finish has
  failed by a sink that never fails.
-/
theorem outcome_of_play
    (hData : session.data.Accepting)
    (hIndex : session.index.Reliable)
    (hPlay : session.play = .ok course) :
    ∃ segments,
      session.Outcome course segments ∧
      (session.data.Reliable → course.torn = false) := by
  rcases play_spec hData hIndex hPlay with
    ⟨segments, hStands, hStage, hKept, hReliable⟩
  rcases hStands.outlet.holds with ⟨_, hHold, _⟩
  refine ⟨segments, ?_, hReliable⟩
  exact
    { received := hHold.data.contents
      kept := hKept.symm
      frames := hStands.outlet.frames
      made := hStands.made
      uniform := by
        intro fields hFields
        rw [hStands.trail.header_eq fields hFields,
          hStands.header_eq]
        exact (ContainerWriter.headerOf_spec _ _ _).2.2
      complete := by
        intro hWhole
        have hTrail := hStands.trail
        rw [hWhole] at hTrail
        exact
          hTrail.complete hStands.regular hStands.flags hStage
      indexed := by
        intro hIndexed
        have hOutlet := hStands.outlet
        rw [hIndexed] at hOutlet
        have hBoth := hOutlet.indexed (hStands.idle hStage).2
        exact hBoth.index.contents
      torn_split := by
        intro hTorn
        rcases hStands.trail.torn_split hStands.regular
          hStands.flags hTorn with
          ⟨front, back, hSplit, hAt⟩
        exact
          ⟨front, back, hSplit, hAt.complete, hAt.strange,
            fun _ => hAt.more hStage⟩ }

end WriterSession

end SplitStream
