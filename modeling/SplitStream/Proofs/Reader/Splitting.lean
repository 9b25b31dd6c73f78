import SplitStream.Proofs.Container.Scanning
import SplitStream.Proofs.FrameIndex.Lookup
import SplitStream.Proofs.Reader.Following
import SplitStream.Split

/-
  Splits of containers. A split reads the first header, goes
  to a frame, and reads on as if that header were the one of
  its member.

  Main declarations:
    * `Split.perform_openContainer`
    * `Split.openContainer_before`
    * `Split.Delivers`
    * `Split.delivers_of_framed`
    * `Split.delivers_of_uniform`
-/

------------------------------------------------------------
-- Opening Splits
------------------------------------------------------------

namespace SplitStream

namespace Split

open ContainerReader Segment

/-
  A split at an indexed offset stands there, with the first
  header of the source.
-/
theorem perform_openContainer
    {codec : Codec}
    {fields : Header}
    {index : FrameIndex}
    {offset : Nat}
    {tail : Bytes}
    (hRegular : fields.Regular)
    (hMethod : fields.method = codec.method)
    (hMem : offset ∈ index.offsets)
    (hBehind : fields.encode.length ≤ offset)
    (source : Source)
    (hFault : source.fault = none)
    (hContent : source.content = fields.encode ++ tail) :
    ∃ opened next,
      (openContainer codec index offset).perform source =
        (.ok (some ⟨offset, standing opened fields codec⟩),
          next) ∧
      opened.fault = none ∧
      opened.rest = source.content.drop offset ∧
      opened.position = offset := by
  rcases source.seek_spec 0 with ⟨hSame, hNoFault, _⟩
  have hStart : (source.seek 0).rest = fields.encode ++ tail := by
    rw [Source.rest_seek, List.drop_zero, hContent]
  rcases Header.consumes_read hRegular (source.seek 0) tail
    (hNoFault.trans hFault) hStart with ⟨read, hRead, hAhead⟩
  rcases read.seek_spec offset with ⟨_, hMoved, hPosition⟩
  rcases resume_follow hMethod (read.seek offset) with
    ⟨reader, hResume, hReader⟩
  rw [Header.length_encode] at hBehind
  refine
    ⟨read.seek offset, read.seek offset, ?_, ?_, ?_, hPosition⟩
  · unfold openContainer
    rw [Step.perform_bind_of_ok (Reading.perform_seek 0 source),
      Step.perform_bind_of_ok hRead,
      FrameIndex.startAtOrBefore_of_mem hMem]
    simp only [if_neg (Nat.not_lt.mpr hBehind)]
    rw [Step.perform_bind_of_ok (Reading.perform_seek offset read),
      Step.perform_bind_of_ok (Step.perform_get _),
      hResume, Step.perform_bind_of_ok (Step.perform_ofExcept _ _),
      hReader]
    rfl
  · rw [hMoved, hAhead.fault, hNoFault, hFault]
  · rw [Source.rest_seek, hAhead.content, hSame]

/-
  A split at a frame stands before it and before all that
  follows.
-/
theorem openContainer_before
    {codec : Codec}
    {fields : Header}
    {segments front back : List Segment}
    {segment : Segment}
    {tail : Bytes}
    (hSplit :
      segments = (.header fields :: front) ++ segment :: back)
    (hRegular : fields.Regular)
    (hReadable :
      ∀ segment ∈ segments, segment.ReadableBy codec)
    (hFrame : segment.isFrame = true)
    (source : Source)
    (hFault : source.fault = none)
    (hContent : source.content = layout segments ++ tail) :
    ∃ opened next,
      (openContainer codec (.ofSegments segments)
            (layout (.header fields :: front)).length).perform
          source =
        (.ok
          (some
            ⟨(layout (.header fields :: front)).length,
              standing opened fields codec⟩),
          next) ∧
      opened.position =
        (layout (.header fields :: front)).length ∧
      (standing opened fields codec).Before (segment :: back)
        tail := by
  have hMethod : fields.method = codec.method := by
    apply hReadable (.header fields)
    rw [hSplit]
    exact List.mem_cons_self
  have hMem :
      (layout (.header fields :: front)).length ∈
        (FrameIndex.ofSegments segments).offsets := by
    rw [hSplit]
    exact FrameIndex.mem_ofSegments hFrame
  have hParts :
      source.content =
        fields.encode ++
          (layout (front ++ segment :: back) ++ tail) := by
    rw [hContent, hSplit, List.cons_append, layout_cons,
      List.append_assoc]
    rfl
  rcases perform_openContainer hRegular hMethod hMem
    (length_encode_le (.header fields) front) source hFault
    hParts with
    ⟨opened, next, hOpen, hNoFault, hRest, hPosition⟩
  refine ⟨opened, next, hOpen, hPosition, ?_⟩
  exact
    { stage := rfl
      follow := rfl
      fault := hNoFault
      rest := by
        change opened.rest = _
        rw [hRest, hContent, hSplit, layout_append,
          List.append_assoc]
        exact List.drop_left
      readable := by
        intro later hLater
        apply hReadable
        rw [hSplit]
        exact List.mem_append_right _ hLater }

------------------------------------------------------------
-- Reading Splits
------------------------------------------------------------

/-
  A split of some bytes starts at an offset, wherever the
  source stood, and its reader delivers data in a number of
  frames and ends cleanly.
-/
def Delivers
    (codec : Codec)
    (bytes : Bytes)
    (index : FrameIndex)
    (offset : Nat)
    (data : Bytes)
    (frames : Nat) : Prop :=
  ∀ position schedule, ∃ split next collected,
    (openContainer codec index offset).perform
        (Source.atPosition bytes position none schedule) =
      (.ok (some split), next) ∧
    split.offset = offset ∧
    FrameReader.readToEnd split.reader = collected ∧
    collected.failure = none ∧
    collected.reader.isFinished = true ∧
    collected.bytes.toBytes = data ∧
    collected.reader.frames = frames

/-
  A split at a frame delivers all data from there on if its
  member records the checksums of the first header.
-/
theorem delivers_of_framed
    {codec : Codec}
    {fields : Header}
    {segments front back : List Segment}
    {segment : Segment}
    {tail : Bytes}
    (hSplit :
      segments = (.header fields :: front) ++ segment :: back)
    (hRegular : fields.Regular)
    (hReadable :
      ∀ segment ∈ segments, segment.ReadableBy codec)
    (hFrame : segment.isFrame = true)
    (hFramed :
      Framed (.ofFlags fields.flags) (segment :: back))
    (hTail : tail.take 9 ≠ Container.magic) :
    Delivers codec (layout segments ++ tail)
      (.ofSegments segments)
      (layout (.header fields :: front)).length
      (Segment.contents (segment :: back))
      (Segment.frames (segment :: back)) := by
  intro position schedule
  rcases openContainer_before hSplit hRegular hReadable hFrame
    (Source.atPosition (layout segments ++ tail) position none
      schedule) rfl rfl with
    ⟨opened, next, hOpen, _, hBefore⟩
  rcases readToEnd_of_before hFramed hBefore hTail with
    ⟨bytes, last, hRead, hBytes, hStage, hFrames⟩
  refine
    ⟨_, next, ⟨bytes, none, last⟩, hOpen, rfl, hRead, rfl, ?_,
      hBytes, ?_⟩
  · simp [isFinished, hStage]
  · rw [hFrames]
    exact Nat.zero_add _

/-
  A split at a frame delivers all data from there on if all
  headers before it record the same checksums.
-/
theorem delivers_of_uniform
    {codec : Codec}
    {checksums : Selection}
    {segments front back : List Segment}
    {segment : Segment}
    {tail : Bytes}
    (hSplit : segments = front ++ segment :: back)
    (hComplete : Complete segments)
    (hReadable :
      ∀ segment ∈ segments, segment.ReadableBy codec)
    (hFrame : segment.isFrame = true)
    (hUniform : Uniform checksums front)
    (hTail : tail.take 9 ≠ Container.magic) :
    Delivers codec (layout segments ++ tail)
      (.ofSegments segments) (layout front).length
      (Segment.contents (segment :: back))
      (Segment.frames (segment :: back)) := by
  subst hSplit
  rcases hComplete.at_frame hUniform hFrame with
    ⟨fields, rest, rfl, hRegular, hFirst, hFramed⟩
  apply delivers_of_framed rfl hRegular hReadable hFrame _ hTail
  rw [hFirst]
  exact hFramed

end Split

end SplitStream
