import Mathlib
import SplitStream.Proofs.Codec.Lossless
import SplitStream.Proofs.Container.Scanning
import SplitStream.Proofs.Session.Outcome

/-
  Whole sessions and what is found in their containers again.
  What calls have brought in, and resets have not dropped, is
  what a reader of the sink delivers; and the index that was
  captured is the one that a scan of the sink finds. The
  writer counts what it hands to its sink; the scan works the
  positions out from headers and lengths.

  Main declarations:
    * `WriterSession.Outcome.reads`
    * `WriterSession.readsTo_kept`
    * `FrameIndex.Locates`
    * `FrameIndex.locates_ofSegments`
    * `WriterSession.scan_eq_captured`
-/

------------------------------------------------------------
-- Reading What Was Written
------------------------------------------------------------

namespace SplitStream

namespace WriterSession

open ContainerReader

variable
  {session : WriterSession}
  {course : Course ContainerWriter SinkPair}
  {segments : List Segment}

/- A container that a session has come to is read. -/
theorem Outcome.reads
    (h : session.Outcome course segments)
    (hCodec : session.codec.Lossless)
    (hComplete : Segment.Complete segments) :
    ReadsTo session.codec course.world.data.contents
      course.kept (FrameWriter.frames course.writer) := by
  have hReads :=
    readsTo_of_complete hComplete (h.readable hCodec)
      Header.take_nil_ne_magic
  rw [List.append_nil] at hReads
  rw [h.received, h.kept, h.frames]
  exact hReads

/-
  Over sinks that never fail, whatever single calls have come
  to, a reader delivers what was kept, to a clean end.
-/
theorem readsTo_kept
    (hData : session.data.Reliable)
    (hIndex : session.index.Reliable)
    (hCodec : session.codec.Lossless)
    (hPlay : session.play = .ok course) :
    ReadsTo session.codec course.world.data.contents
      course.kept (FrameWriter.frames course.writer) := by
  rcases outcome_of_play hData.1 hIndex hPlay with
    ⟨segments, hOutcome, hReliable⟩
  apply hOutcome.reads hCodec
  exact hOutcome.complete (hReliable hData)

/-
  Two members, the first one with a packed frame; a write
  behind the first member is refused, a range is refused, and
  a reset drops what is pending.
-/
def twoMembers : WriterSession where
  codec := .runLength
  options :=
    { WriterOptions.standard with blockSize := 4 }
  clock := 0
  data := .willing
  index := .willing
  before :=
    [.write [7, 7, 7, 7, 8], .finish, .write [1], .reset]
  indexed := false
  after :=
    [.writeRange [1, 2, 3] 1 2, .writeRange [1] 1 1, .reset,
      .write [5, 6]]
  ending := .close

theorem readsTo_kept_of_twoMembers :
    ∃ course,
      twoMembers.play = .ok course ∧
      course.kept = [7, 7, 7, 7, 8, 5, 6] ∧
      ReadsTo twoMembers.codec course.world.data.contents
        course.kept 3 := by
  have hEnd :
      twoMembers.play.map
          (fun course =>
            (course.kept, FrameWriter.frames course.writer)) =
        .ok ([7, 7, 7, 7, 8, 5, 6], 3) := by
    cbv
  rcases play_of_map hEnd with ⟨course, hPlay, hView⟩
  rcases Prod.mk.inj hView with ⟨hKept, hFrames⟩
  refine ⟨course, hPlay, hKept, ?_⟩
  rw [← hFrames]
  exact
    readsTo_kept Conduct.reliable_willing
      Conduct.reliable_willing Codec.runLength_lossless hPlay

end WriterSession

------------------------------------------------------------
-- Located Frames
------------------------------------------------------------

open Segment

/-
  There is an entry for each frame, at the position of its
  first byte, and none for any other segment.
-/
structure FrameIndex.Locates
    (index : FrameIndex)
    (segments : List Segment) : Prop where
  count : index.count = Segment.frames segments
  frame :
    ∀ front segment back,
      segments = front ++ segment :: back →
      segment.isFrame = true →
        index.position (Segment.frames front) =
          some (layout front).length
  other :
    ∀ front segment back,
      segments = front ++ segment :: back →
      segment.isFrame = false →
        (layout front).length ∉ index.offsets

theorem FrameIndex.locates_ofSegments
    (segments : List Segment) :
    (ofSegments segments).Locates segments := by
  constructor
  · exact length_offsets 0 segments
  · rintro front segment back rfl hFrame
    have hEntry := getElem?_offsets 0 front back hFrame
    rw [Nat.zero_add] at hEntry
    exact hEntry
  · rintro front segment back rfl hOther
    have hNone := not_mem_offsets 0 front back hOther
    rw [Nat.zero_add] at hNone
    exact hNone

------------------------------------------------------------
-- Captured Indexes
------------------------------------------------------------

namespace WriterSession

variable
  {session : WriterSession}
  {course : Course ContainerWriter SinkPair}

/-
  Over sinks that never fail, a scan of the container finds
  an index with the bytes that the index sink has received,
  and this index locates the frames of the container.
-/
theorem scan_eq_captured
    (hData : session.data.Reliable)
    (hIndex : session.index.Reliable)
    (hIndexed : session.indexed = true)
    (hPlay : session.play = .ok course) :
    ∃ segments index,
      Complete segments ∧
      layout segments = course.world.data.contents ∧
      index.Locates segments ∧
      index.count = FrameWriter.frames course.writer ∧
      index.toBytes = course.world.index.contents ∧
      Scan.Finds Scan.container course.world.data.contents
        index ∧
      Scan.Finds Scan.stream course.world.data.contents
        index := by
  rcases outcome_of_play hData.1 hIndex hPlay with
    ⟨segments, hOutcome, hReliable⟩
  have hComplete := hOutcome.complete (hReliable hData)
  have hLocates := FrameIndex.locates_ofSegments segments
  refine
    ⟨segments, .ofSegments segments, hComplete,
      hOutcome.received.symm, hLocates, ?_, ?_, ?_⟩
  · rw [hLocates.count, hOutcome.frames]
  · exact (hOutcome.indexed hIndexed).symm
  · rw [hOutcome.received]
    exact Scan.finds_of_complete hComplete

/-
  Two members with a packed frame and two stored ones. The
  index is attached when a byte is already held over.
-/
def capturedMembers : WriterSession where
  codec := .runLength
  options :=
    { WriterOptions.standard with blockSize := 4 }
  clock := 0
  data := .willing
  index := .willing
  before := [.write [7]]
  indexed := true
  after := [.write [7, 7, 7, 8], .finish, .reset, .write [5]]
  ending := .finish

theorem scan_eq_captured_of_capturedMembers :
    ∃ course index,
      capturedMembers.play = .ok course ∧
      index.count = 3 ∧
      index.toBytes = course.world.index.contents ∧
      Scan.Finds Scan.container course.world.data.contents
        index ∧
      Scan.Finds Scan.stream course.world.data.contents
        index := by
  have hEnd :
      capturedMembers.play.map
          (fun course => FrameWriter.frames course.writer) =
        .ok 3 := by
    cbv
  rcases play_of_map hEnd with ⟨course, hPlay, hFrames⟩
  rcases scan_eq_captured Conduct.reliable_willing
    Conduct.reliable_willing rfl hPlay with
    ⟨_, index, _, _, _, hCount, hBytes, hScan⟩
  exact
    ⟨course, index, hPlay, hCount.trans hFrames, hBytes, hScan⟩

end WriterSession

end SplitStream
