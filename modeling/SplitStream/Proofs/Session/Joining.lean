import SplitStream.Proofs.Reader.Splitting
import SplitStream.Proofs.Session.RoundTrip

/-
  Splits of joined files. A split takes the checksums from
  the first header of a file, so splits work up to the seam
  of two files, and behind it if both record the same.

  Main declarations:
    * `FinishedSession`
    * `FinishedSession.Joins`
    * `FinishedSession.SplitsWork`
    * `FinishedSession.splitsWork`
-/

------------------------------------------------------------
-- Finished Sessions
------------------------------------------------------------

namespace SplitStream

/- A session that was played over sinks that never fail. -/
structure FinishedSession where
  session : WriterSession
  course : Course ContainerWriter SinkPair
  data_reliable : session.data.Reliable
  index_reliable : session.index.Reliable
  played : session.play = .ok course

namespace FinishedSession

open ContainerReader Segment

/- The bytes in the sink. -/
def bytes
    (run : FinishedSession) : Bytes :=
  run.course.world.data.contents

/- The recorded checksums. -/
def checksums
    (run : FinishedSession) : Selection :=
  run.session.options.checksums

/- Two sessions have written with one codec without loss. -/
structure Joins
    (left right : FinishedSession) : Prop where
  codec_eq : right.session.codec = left.session.codec
  lossless : left.session.codec.Lossless

/-
  The joined bytes are a container; they are scanned and
  read, and a split at each frame that starts within a range
  delivers what the reader delivers from this frame on.
-/
def SplitsWork
    (left right : FinishedSession)
    (Within : Nat → Prop) : Prop :=
  ∃ segments index,
    Complete segments ∧
    layout segments = left.bytes ++ right.bytes ∧
    index.Locates segments ∧
    Scan.Finds Scan.container (left.bytes ++ right.bytes) index ∧
    ReadsTo left.session.codec (left.bytes ++ right.bytes)
      (Segment.contents segments) (Segment.frames segments) ∧
    ∀ front segment back,
      segments = front ++ segment :: back →
      segment.isFrame = true →
      Within (layout front).length →
        Split.Delivers left.session.codec
          (left.bytes ++ right.bytes) index
          (layout front).length
          (Segment.contents (segment :: back))
          (Segment.frames (segment :: back))

theorem SplitsWork.mono
    {left right : FinishedSession}
    {Within Narrow : Nat → Prop}
    (hWorks : left.SplitsWork right Within)
    (hNarrow : ∀ offset, Narrow offset → Within offset) :
    left.SplitsWork right Narrow := by
  rcases hWorks with
    ⟨segments, index, hComplete, hLayout, hLocates, hScan, hReads,
      hSplits⟩
  refine
    ⟨segments, index, hComplete, hLayout, hLocates, hScan, hReads,
      ?_⟩
  intro front segment back hSplit hFrame hWithin
  apply hSplits front segment back hSplit hFrame
  exact hNarrow _ hWithin

/-
  If splits work, then at each frame that is known to stand
  within the range.
-/
theorem SplitsWork.delivers
    {left right : FinishedSession}
    {Within : Nat → Prop}
    {known front back : List Segment}
    {segment : Segment}
    (hWorks : left.SplitsWork right Within)
    (hKnown : Complete known)
    (hBytes : left.bytes ++ right.bytes = layout known)
    (hSplit : known = front ++ segment :: back)
    (hFrame : segment.isFrame = true)
    (hWithin : Within (layout front).length) :
    ∃ data n,
      Split.Delivers left.session.codec (layout known)
        (.ofSegments known) (layout front).length data n := by
  rcases hWorks with
    ⟨segments, index, _, _, hLocates, hScan, _, hSplits⟩
  rw [hBytes] at hScan hSplits
  have hIndex : index = .ofSegments known :=
    hScan.index_unique (Scan.finds_of_complete hKnown).1
  subst hIndex
  have hSame := FrameIndex.locates_ofSegments known
  have hLess : Segment.frames front < Segment.frames segments := by
    rw [← hLocates.count, hSame.count, hSplit, frames_append,
      frames_cons, if_pos hFrame]
    omega
  rcases exists_frame hLess with
    ⟨front', segment', back', hParts, hFrame', hNumber⟩
  have hAt := hLocates.frame front' segment' back' hParts hFrame'
  rw [hNumber, hSame.frame front segment back hSplit hFrame]
    at hAt
  have hOffset := Option.some.inj hAt
  rw [hOffset] at hWithin ⊢
  exact
    ⟨_, _, hSplits front' segment' back' hParts hFrame' hWithin⟩

theorem outcome
    (run : FinishedSession) :
    ∃ segments,
      run.session.Outcome run.course segments ∧
      Complete segments := by
  rcases WriterSession.outcome_of_play run.data_reliable.1
    run.index_reliable run.played with
    ⟨segments, hOutcome, hReliable⟩
  exact
    ⟨segments, hOutcome,
      hOutcome.complete (hReliable run.data_reliable)⟩

------------------------------------------------------------
-- Splits That Work
------------------------------------------------------------

/-
  In front of a frame, all headers record what the first one
  does: the frame lies before the seam, or both files record
  the same.
-/
theorem uniform_front
    {a b : Selection}
    {left right front back : List Segment}
    {segment : Segment}
    (hLeft : Uniform a left)
    (hRight : Uniform b right)
    (hSplit : left ++ right = front ++ segment :: back)
    (hWithin :
      (layout front).length < (layout left).length ∨ a = b) :
    Uniform a front := by
  intro fields hFields
  rcases hWithin with hBefore | rfl
  · rcases List.append_eq_append_iff.mp hSplit with
      ⟨more, rfl, _⟩ | ⟨more, rfl, _⟩
    · rw [layout_append, List.length_append] at hBefore
      omega
    · exact hLeft fields (List.mem_append_left _ hFields)
  · have hAll : .header fields ∈ left ++ right := by
      rw [hSplit]
      exact List.mem_append_left _ hFields
    rcases List.mem_append.mp hAll with hOld | hNew
    · exact hLeft fields hOld
    · exact hRight fields hNew

/- A split works up to the seam, or if both record the same. -/
theorem splitsWork
    {left right : FinishedSession}
    (hJoins : left.Joins right) :
    left.SplitsWork right fun offset =>
      offset < left.bytes.length ∨
        left.checksums = right.checksums := by
  rcases left.outcome with ⟨front, hFront, hComplete⟩
  rcases right.outcome with ⟨back, hBack, hMore⟩
  have hWhole := hComplete.append hMore
  have hReadable :
      ∀ segment ∈ front ++ back,
        segment.ReadableBy left.session.codec := by
    intro segment hSegment
    rcases List.mem_append.mp hSegment with hOld | hNew
    · exact hFront.readable hJoins.lossless segment hOld
    · have hLossless := hJoins.lossless
      rw [← hJoins.codec_eq] at hLossless ⊢
      exact hBack.readable hLossless segment hNew
  have hBytes :
      layout (front ++ back) = left.bytes ++ right.bytes := by
    rw [layout_append, ← hFront.received, ← hBack.received]
    rfl
  have hJoined :
      layout (front ++ back) ++ [] = left.bytes ++ right.bytes := by
    rw [List.append_nil, hBytes]
  refine
    ⟨front ++ back, .ofSegments (front ++ back), hWhole, hBytes,
      FrameIndex.locates_ofSegments _, ?_, ?_, ?_⟩
  · rw [← hBytes]
    exact (Scan.finds_of_complete hWhole).1
  · rw [← hJoined]
    exact
      readsTo_of_complete hWhole hReadable
        Header.take_nil_ne_magic
  · intro before segment rest hSplit hFrame hWithin
    rw [← hJoined]
    apply Split.delivers_of_uniform hSplit hWhole hReadable hFrame
      _ Header.take_nil_ne_magic
    · exact left.checksums
    · apply uniform_front hFront.uniform hBack.uniform hSplit
      rw [← hFront.received]
      exact hWithin

end FinishedSession

end SplitStream
