import SplitStream.Proofs.Container.HeaderLayout
import SplitStream.Proofs.Reader.Leading
import SplitStream.Proofs.Source.Heredity
import SplitStream.Proofs.Source.Stability

/-
  Headers and containers that have been cut short. Wherever a
  cut goes through a segment, the reading that needs the
  missing bytes tells that the source is truncated. All frames
  before the cut are delivered first.

  Main declarations:
    * `Reading.hereditary_stable`
    * `Header.starves_readAfterMagic`
    * `Header.starves_read`
    * `Reading.starves_frameLength`
    * `ContainerReader.stable_readRecorded`
    * `ContainerReader.truncates_decodeFrame`
    * `ContainerReader.truncates_round`
    * `ContainerReader.delivers_of_severed`
-/

------------------------------------------------------------
-- Stable Headers
------------------------------------------------------------

namespace SplitStream

open Reading

/- Stability goes over from parts to wholes. -/
theorem Reading.hereditary_stable :
    Hereditary fun {_} reading => reading.Stable where
  of_pure := stable_pure
  of_throw := fun e _ => stable_throw e
  of_bind := fun hReading hAfter => hReading.bind hAfter
  of_exactly := stable_exactly
  of_recorded := fun hReading => hReading.recorded

namespace Header

theorem stable_readAfterMagic : readAfterMagic.Stable :=
  hereditary_readAfterMagic hereditary_stable

theorem stable_read : read.Stable :=
  hereditary_read hereditary_stable

/- Behind a magic number, no byte of a header may be missing. -/
theorem starves_readAfterMagic
    {header : Header}
    (hRegular : header.Regular) :
    readAfterMagic.Starves header.afterMagic :=
  stable_readAfterMagic.starves (consumes_readAfterMagic hRegular)

/- No byte of a header may be missing. -/
theorem starves_read
    {header : Header}
    (hRegular : header.Regular) :
    read.Starves header.encode :=
  stable_read.starves (consumes_read hRegular)

end Header

------------------------------------------------------------
-- Starts Of Frames
------------------------------------------------------------

namespace Reading

/-
  In front of a frame, a word that is not whole is reported,
  unless nothing of it is there.
-/
theorem truncates_frameStart
    {n : Nat}
    {missing : Bytes}
    (source : Source)
    (hFault : source.fault = none)
    (hMissing : missing ≠ [])
    (hRest : source.rest ++ missing = Frame.length n) :
    (∃ next, frameStart.perform source = (.ok none, next)) ∨
      Step.Truncates frameStart source := by
  have hSome := List.length_pos_iff.mpr hMissing
  have hLength := congrArg List.length hRest
  rw [List.length_append, Frame.length, Bytes.length_bigEndian]
    at hLength
  by_cases hNone : source.rest = []
  · left
    exact perform_frameStart_of_end source hFault hNone
  · right
    rcases perform_upTo source 4 hFault with ⟨next, hUpTo, _⟩
    have hTake : source.rest.take 4 = source.rest :=
      List.take_of_length_le (by omega)
    rw [hTake] at hUpTo
    refine ⟨.frameLength, next, ?_⟩
    rw [frameStart, Step.perform_bind_of_ok hUpTo,
      if_neg (by simpa using hNone), if_neg (by omega)]
    rfl

theorem starves_frameLength
    {n : Nat}
    (h : n < Bytes.wordCount 4) :
    frameLength.Starves (Frame.length n) :=
  (stable_number .frameLength 4).starves (consumes_frameLength h)

theorem starves_framePayload
    (payload : Bytes) :
    (framePayload payload.length).Starves payload :=
  (stable_exactly .framePayload payload.length).starves
    (consumes_exactly _ rfl)

end Reading

------------------------------------------------------------
-- Frames
------------------------------------------------------------

namespace ContainerReader

open FrameReader Reading Segment

variable {reader : ContainerReader} {missing : Bytes}

/- A reading that needs its bytes cuts the reader short. -/
theorem truncates_onSource
    {α : Type}
    {reading : Reading α}
    {bs : Bytes}
    (hReading : reading.Starves bs)
    (reader : ContainerReader)
    (hFault : reader.source.fault = none)
    (hMissing : missing ≠ [])
    (hRest : reader.source.rest ++ missing = bs) :
    Step.Truncates (onSource reading) reader :=
  hReading.within reader hFault hMissing hRest

theorem stable_readRecorded
    (checksums : Selection)
    (plain : Nat) :
    (Recorded.read checksums plain).Stable :=
  Recorded.hereditary_read hereditary_stable checksums plain

/-
  A frame is cut short in one of its lengths, its checksums,
  or its payload. The length of the block has been read.
-/
theorem truncates_decodeFrame
    {content : PackedBlock}
    (hFits : content.Fits)
    (hFault : reader.source.fault = none)
    (hMissing : missing ≠ [])
    (hRest :
      reader.source.rest ++ missing =
        content.afterLength reader.checksums) :
    Step.Truncates (decodeFrame content.block.length) reader := by
  have hRead :=
    (stable_readRecorded _ _).starves
      (Recorded.consumes_read
        (fitsIn_recordedOf reader.checksums hFits))
  rw [← encode_recordedOf] at hRest
  rcases (truncates_onSource hRead reader hFault hMissing
    hRest).bind with ⟨cut, next, hCut⟩
  exact
    ⟨cut, next, (perform_decodeFrame_eq reader _).trans hCut⟩

------------------------------------------------------------
-- Rounds
------------------------------------------------------------

/- No frame is found where the word in front of it is cut. -/
theorem truncates_round_of_start
    {n : Nat}
    (hReady : reader.Ready)
    (hMissing : missing ≠ [])
    (hRest : reader.source.rest ++ missing = Frame.length n) :
    Step.Truncates round reader := by
  have hRound := perform_round hReady.stage
  rcases truncates_frameStart reader.source hReady.fault hMissing
    hRest with ⟨next, hStart⟩ | ⟨cut, next, hStart⟩
  · refine ⟨.endMarker, { reader with source := next }, ?_⟩
    rw [hRound, Step.perform_bind_of_ok (a := none)]
    · rfl
    · simp [onSource, hStart]
  · refine ⟨cut, { reader with source := next }, ?_⟩
    rw [hRound]
    apply Step.perform_bind_of_error
    simp [onSource, hStart]

/- A round does not pass a segment that is cut. -/
theorem truncates_round
    {segments : List Segment}
    {tail : Bytes}
    (hBefore : reader.Before [] tail)
    (hSevered : Severed reader.checksums segments tail) :
    Step.Truncates round reader := by
  have hRest : reader.source.rest = tail := hBefore.rest
  cases hSevered with
  | terminator hMissing hLeft =>
    rw [← hRest] at hLeft
    exact
      truncates_round_of_start hBefore.ready hMissing hLeft
  | @frame content _ _ _ hFits hMissing hLeft =>
    rw [← hRest, PackedBlock.encode_eq] at hLeft
    rcases cut_of_append hLeft with
      ⟨short, hShort, hCut⟩ | ⟨after, hAfter, hMore⟩
    · exact truncates_round_of_start hBefore.ready hShort hCut
    have hSmall : content.block.length < Bytes.wordCount 4 :=
      lt_wordCount hFits.block_le
    rcases perform_onSource (consumes_frameStart hSmall) reader
      hBefore.fault hAfter with ⟨source, hStart, hAhead⟩
    rw [← hAhead.rest_of_eq hAfter rfl] at hMore
    have hDecode :
        Step.Truncates (decodeFrame content.block.length)
          { reader with source } :=
      truncates_decodeFrame hFits
        (hAhead.fault.trans hBefore.fault) hMissing hMore
    rcases Nat.exists_eq_succ_of_ne_zero
      (Nat.pos_iff_ne_zero.mp hFits.block_pos) with
      ⟨plain, hPlain⟩
    rw [hPlain] at hStart hDecode
    have hProceed :
        Step.Truncates (proceed (some (plain + 1)))
          { reader with source } :=
      hDecode.bind
    rcases hProceed.behind hStart with ⟨cut, next, hCut⟩
    exact ⟨cut, next, (perform_round hBefore.stage).trans hCut⟩
  | @header fields _ left _ hRegular hLong hMissing hLeft =>
    rw [Header.encode_eq] at hLeft
    rcases cut_of_append hLeft with
      ⟨short, hShort, hCut⟩ | ⟨after, rfl, hMore⟩
    · have hNine := congrArg List.length hCut
      have hSome := List.length_pos_iff.mpr hShort
      rw [List.length_append] at hNine
      have : Container.magic.length = 9 := rfl
      omega
    have hTerminator :
        reader.Before [.terminator] (Container.magic ++ after) :=
      { hBefore with readable := by simp [ReadableBy] }
    rcases hTerminator.perform_terminator with
      ⟨s₁, hRound, hFault₁, hRest₁⟩
    rcases perform_peek
      { reader with source := s₁, stage := .ended } hFault₁ with
      ⟨s₂, hPeek, hAhead⟩
    have hMagic : s₁.rest.take 9 = Container.magic := by
      rw [hRest₁]
      rfl
    change s₁.Ahead s₂ _ at hAhead
    rw [hMagic] at hPeek hAhead
    have hBehind : s₂.rest = after :=
      hAhead.rest_of_eq hRest₁ rfl
    rw [← hBehind] at hMore
    rcases truncates_onSource
      (Header.starves_readAfterMagic hRegular)
      { reader with source := s₂, stage := .ended }
      (hAhead.fault.trans hFault₁) hMissing hMore with
      ⟨cut, next, hHeader⟩
    refine ⟨cut, next, ?_⟩
    have hNext :
        nextMember.perform
            { reader with source := s₁, stage := .ended } =
          (.error (.truncated cut), next) := by
      unfold nextMember
      rw [Step.perform_bind_of_ok hPeek,
        if_neg (not_not_intro rfl)]
      exact Step.perform_bind_of_error hHeader
    rw [hRound, Step.perform_map, hNext]
    rfl

/-
  All blocks before a segment that is cut are delivered, and
  then the reader is cut short.
-/
theorem delivers_of_severed
    {last : Selection}
    {front segments : List Segment}
    {tail : Bytes}
    (hLeads : Leads reader.checksums front last)
    (hBefore : reader.Before front tail)
    (hSevered : Severed last segments tail) :
    ∃ cut,
      Delivers reader (Segment.blocks front)
        (some (.truncated cut)) := by
  rcases arrives_of_leads hLeads reader hBefore rfl with
    ⟨before, after, hArrives⟩
  have hStands : Before (cleared after) [] tail :=
    { hArrives.stands with }
  have hHere : (cleared after).checksums = last :=
    hArrives.checksums_eq
  rw [← hHere] at hSevered
  rcases truncates_round hStands hSevered with
    ⟨cut, next, hRound⟩
  have hRead :
      readFrame.perform before =
        (.error (.truncated cut), next) :=
    hArrives.same.trans (perform_readFrameRounds _ hRound)
  have hDelivers := hArrives.leads.delivers (.failed hRead)
  rw [List.append_nil] at hDelivers
  exact ⟨cut, hDelivers⟩

end ContainerReader

end SplitStream
