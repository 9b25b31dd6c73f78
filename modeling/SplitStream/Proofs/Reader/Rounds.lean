import SplitStream.Proofs.Codec.Lossless
import SplitStream.Proofs.Container.HeaderExchange
import SplitStream.Proofs.Reader.FrameAcceptance

/-
  Rounds of the loop over the frames of a container. A round
  that succeeds has moved over a frame, over a terminator and
  the header behind it, or over the last terminator.

  Main declarations:
    * `Codec.Fills`
    * `ContainerReader.Ready`
    * `ContainerReader.MovesOver`
    * `ContainerReader.movesOver_of_round`
    * `ContainerReader.MovesOver.ready`
-/

------------------------------------------------------------
-- Starts Of Frames
------------------------------------------------------------

namespace SplitStream

open Reading

/- A word that was found in front of a frame is its length. -/
theorem Reading.yields_frameStart :
    frameStart.Yields fun bs start =>
      ∀ n, start = some n →
        bs = Frame.length n ∧ n < Bytes.wordCount 4 := by
  intro source next start hFault hRun
  rcases perform_upTo source 4 hFault with ⟨s, hUpTo, hAhead⟩
  rw [frameStart, Step.perform_bind_of_ok hUpTo] at hRun
  have hRest : source.rest = source.rest.take 4 ++ s.rest := by
    rw [hAhead.rest, List.length_take]
    rcases Nat.le_total 4 source.rest.length with hLong | hShort
    · rw [Nat.min_eq_left hLong, List.take_append_drop]
    · rw [Nat.min_eq_right hShort, List.drop_length,
        List.take_of_length_le hShort, List.append_nil]
  by_cases hEmpty : (source.rest.take 4).isEmpty = true
  · rw [if_pos hEmpty] at hRun
    cases hRun
    exact ⟨_, by simp, hRest, hAhead⟩
  · rw [if_neg hEmpty] at hRun
    by_cases hLength : (source.rest.take 4).length = 4
    · rw [if_pos hLength] at hRun
      cases hRun
      refine ⟨_, ?_, hRest, hAhead⟩
      rintro n ⟨⟩
      have hLess := Bytes.ofBigEndian_lt (source.rest.take 4)
      have hWord :=
        Bytes.bigEndian_ofBigEndian (source.rest.take 4)
      rw [hLength] at hLess hWord
      exact ⟨hWord.symm, hLess⟩
    · rw [if_neg hLength] at hRun
      cases hRun

/- Only at the end of a source there is no frame. -/
theorem Reading.rest_of_frameStart
    {source next : Source}
    (hFault : source.fault = none)
    (hRun : frameStart.perform source = (.ok none, next)) :
    source.rest = [] := by
  rcases perform_upTo source 4 hFault with ⟨s, hUpTo, _⟩
  rw [frameStart, Step.perform_bind_of_ok hUpTo] at hRun
  by_cases hEmpty : (source.rest.take 4).isEmpty = true
  · simpa using hEmpty
  · rw [if_neg hEmpty] at hRun
    by_cases hLength : (source.rest.take 4).length = 4
    · rw [if_pos hLength] at hRun
      cases hRun
    · rw [if_neg hLength] at hRun
      cases hRun

/- At the end of a source there is no frame. -/
theorem Reading.perform_frameStart_of_end
    (source : Source)
    (hFault : source.fault = none)
    (hRest : source.rest = []) :
    ∃ next, frameStart.perform source = (.ok none, next) := by
  rcases perform_upTo source 4 hFault with ⟨next, hUpTo, _⟩
  refine ⟨next, ?_⟩
  rw [frameStart, Step.perform_bind_of_ok hUpTo, hRest]
  rfl

------------------------------------------------------------
-- Filled Areas
------------------------------------------------------------

namespace Codec

/-
  The codec fills the front of an area with a block: what it
  does not write is still there from earlier blocks.
-/
def Fills
    (codec : Codec)
    (area : Scratch)
    (content : PackedBlock) : Prop :=
  let transfer :=
    codec.decompress content.packed content.block.length
  transfer.report = .ok content.block.length ∧
    content.block =
      (area.overwrite
        (transfer.written.take content.block.length)).front
        content.block.length

/- What a functional codec fills an area with is its output. -/
theorem Fills.restores
    {codec : Codec}
    {area : Scratch}
    {content : PackedBlock}
    (hCodec : codec.Functional)
    (h : codec.Fills area content) :
    codec.Restores content.packed content.block := by
  rcases h with ⟨hReport, hBlock⟩
  have hLength := hCodec _ _ _ hReport
  have hFront :=
    area.front_overwrite
      (codec.decompress content.packed
        content.block.length).written
  rw [hLength] at hFront
  refine ⟨hReport, ?_⟩
  rw [List.take_of_length_le (Nat.le_of_eq hLength)]
    at hBlock ⊢
  exact hFront.symm.trans hBlock.symm

end Codec

/-
  Unpacking into an area writes to its front. It succeeds if
  the wanted length is reported, and otherwise the codec or
  the length is to blame.
-/
theorem Staging.decompress_spec
    (staging : Staging)
    (codec : Codec)
    (payload : Bytes)
    (length : Nat) :
    ∃ result,
      staging.decompress codec payload length =
        (result,
          staging.copy
            ((codec.decompress payload length).written.take
              length)) ∧
      (result = .ok () →
        (codec.decompress payload length).report = .ok length) ∧
      ∀ e, result = .error e →
        (∃ status reason, e = .codec status reason) ∨
          ∃ n, e = .lengthMismatch length n := by
  rcases hReport : (codec.decompress payload length).report with
    status | n
  · refine
      ⟨.error (.codec status (codec.describe status)), ?_,
        by simp, ?_⟩
    · simp [decompress, hReport]
    · rintro _ ⟨⟩
      exact .inl ⟨_, _, rfl⟩
  · by_cases hLength : n = length
    · refine ⟨.ok (), ?_, fun _ => by rw [hLength], by simp⟩
      simp [decompress, hReport, hLength]
    · refine ⟨.error (.lengthMismatch length n), ?_, by simp, ?_⟩
      · simp [decompress, hReport, hLength]
      · rintro _ ⟨⟩
        exact .inr ⟨n, rfl⟩

------------------------------------------------------------
-- Further Members
------------------------------------------------------------

namespace ContainerReader

open FrameReader Segment

variable {reader next : ContainerReader}

/- A further member is entered only behind its header. -/
theorem header_of_nextMember
    (hFault : reader.source.fault = none)
    (hRun : nextMember.perform reader = (.ok true, next)) :
    ∃ fields : Header,
      fields.Regular ∧
      fields.method = reader.codec.method ∧
      next =
        { reader with
          source := next.source
          header := fields
          checksums := .ofFlags fields.flags
          stage := .frames } ∧
      reader.source.rest = fields.encode ++ next.source.rest ∧
      reader.source.Ahead next.source fields.encode.length := by
  rcases perform_peek reader hFault with ⟨s₁, hFound, hAhead₁⟩
  rw [nextMember, Step.perform_bind_of_ok hFound] at hRun
  by_cases hMagic : reader.source.rest.take 9 = Container.magic
  · rw [if_neg (not_not_intro hMagic)] at hRun
    rcases Step.ok_of_perform_bind hRun with
      ⟨fields, _, hHeader, hStart⟩
    rcases ok_of_onSource Header.yields_readAfterMagic
      (hAhead₁.fault.trans hFault) hHeader with
      ⟨s₂, _, rfl, ⟨rfl, hRegular⟩, hRest₂, hAhead₂⟩
    rcases Step.ok_of_perform_bind hStart with
      ⟨⟨⟩, _, hMember, hLast⟩
    cases hLast
    rw [startMember,
      Step.perform_bind_of_ok (Step.perform_get _)] at hMember
    rcases Step.ok_of_perform_bind hMember with
      ⟨⟨⟩, _, hCheck, hModify⟩
    rw [Step.perform_ofExcept] at hCheck
    rcases Prod.mk.inj hCheck with ⟨hMethod, rfl⟩
    cases hModify
    rw [hMagic] at hAhead₁
    refine ⟨fields, hRegular, ?_, rfl, ?_, ?_⟩
    · by_cases hSame : fields.method = reader.codec.method
      · exact hSame
      · simp only [checkMethod, if_neg hSame] at hMethod
        cases hMethod
    · have hNine : Container.magic.length = 9 := rfl
      rw [Header.encode_eq, List.append_assoc, ← hRest₂,
        hAhead₁.rest, hNine, ← hMagic]
      exact (List.take_append_drop 9 _).symm
    · rw [Header.encode_eq, List.length_append]
      exact hAhead₁.trans hAhead₂
  · rw [if_pos hMagic] at hRun
    cases hRun

/- Without a further member there is no magic number. -/
theorem end_of_nextMember
    (hFault : reader.source.fault = none)
    (hRun : nextMember.perform reader = (.ok false, next)) :
    reader.source.rest.take 9 ≠ Container.magic ∧
      next = { reader with source := next.source } := by
  rcases perform_peek reader hFault with ⟨_, hFound, _⟩
  rw [nextMember, Step.perform_bind_of_ok hFound] at hRun
  by_cases hMagic : reader.source.rest.take 9 = Container.magic
  · rw [if_neg (not_not_intro hMagic)] at hRun
    rcases Step.ok_of_perform_bind hRun with ⟨_, _, _, hStart⟩
    rcases Step.ok_of_perform_bind hStart with ⟨_, _, _, hLast⟩
    cases hLast
  · rw [if_pos hMagic] at hRun
    cases hRun
    exact ⟨hMagic, rfl⟩

------------------------------------------------------------
-- Rounds
------------------------------------------------------------

/-
  The reader follows members and stands before a frame in a
  source that does not fail.
-/
structure Ready
    (reader : ContainerReader) : Prop where
  stage : reader.stage = .frames
  follow : reader.followMembers = true
  fault : reader.source.fault = none

/- What a round that succeeds has moved over. -/
inductive MovesOver
    (reader next : ContainerReader) : Round → Prop where
  | last {tail : Bytes} :
      reader.source.rest = layout [.terminator] ++ tail →
      tail.take 9 ≠ Container.magic →
        MovesOver reader next .ended
  | member {fields : Header} :
      fields.Regular →
      fields.method = reader.codec.method →
      reader.source.rest =
        layout [.terminator, .header fields] ++
          next.source.rest →
      reader.source.Ahead next.source
        (layout [.terminator, .header fields]).length →
      next =
        { reader with
          source := next.source
          header := fields
          checksums := .ofFlags fields.flags } →
        MovesOver reader next .member
  | frame {content : PackedBlock} :
      content.Fits →
      reader.source.rest =
        layout [.frame reader.checksums content] ++
          next.source.rest →
      reader.source.Ahead next.source
        (layout [.frame reader.checksums content]).length →
      next =
        { reader with
          source := next.source
          staging := next.staging
          frames := reader.frames + 1 } →
      next.staging.ready = content.block →
      (content.packed.length < content.block.length →
        reader.codec.Fills reader.staging.area content) →
        MovesOver reader next .frame

/- Behind a terminator. -/
theorem movesOver_of_terminator
    {source : Source}
    {found : Bool}
    (hReady : reader.Ready)
    (hRest : reader.source.rest = Frame.length 0 ++ source.rest)
    (hAhead : reader.source.Ahead source 4)
    (hNext :
      nextMember.perform
          { reader with source := source, stage := .ended } =
        (.ok found, next)) :
    MovesOver reader next (if found then .member else .ended) := by
  have hFault := hAhead.fault.trans hReady.fault
  cases found with
  | false =>
    exact .last hRest (end_of_nextMember hFault hNext).1
  | true =>
    rcases header_of_nextMember hFault hNext with
      ⟨fields, hRegular, hMethod, hSame, hMore, hMoved⟩
    change source.rest = _ at hMore
    change source.Ahead _ _ at hMoved
    refine .member hRegular hMethod ?_ ?_ ?_
    · rw [hRest, hMore]
      simp [encode, Frame.terminator]
    · have hBoth := hAhead.trans hMoved
      simpa [encode, Frame.terminator, Frame.length] using hBoth
    · rw [hSame, ← hReady.stage]

/- Behind the length of a block. -/
theorem movesOver_of_length
    {source : Source}
    {n : Nat}
    (hReady : reader.Ready)
    (hRest :
      reader.source.rest = Frame.length (n + 1) ++ source.rest)
    (hAhead : reader.source.Ahead source 4)
    (hDecode :
      (decodeFrame (n + 1)).perform
          { reader with source := source } =
        (.ok (), next)) :
    MovesOver reader next .frame := by
  rcases accepted_of_decodeFrame
    (hAhead.fault.trans hReady.fault) hDecode with
    ⟨content, hLength, hAccepted⟩
  have hLe := hAccepted.packed_le
  have hLayout :
      layout [.frame reader.checksums content] =
        Frame.length (n + 1) ++
          content.afterLength reader.checksums := by
    rw [layout_cons, layout_nil, List.append_nil, encode,
      PackedBlock.encode_eq, hLength]
  have hMore := hAccepted.rest
  have hMoved := hAccepted.ahead
  change source.rest = _ at hMore
  change source.Ahead _ _ at hMoved
  refine .frame ?_ ?_ ?_ hAccepted.next_eq hAccepted.ready
    hAccepted.unpacked
  · exact
      { block_pos := by omega
        block_le := hAccepted.block_le }
  · rw [hLayout, hRest, hMore, List.append_assoc]
  · rw [hLayout, List.length_append]
    simpa [Frame.length] using hAhead.trans hMoved

/- A round that succeeds has moved over what it has found. -/
theorem movesOver_of_round
    {found : Round}
    (hReady : reader.Ready)
    (hRound : round.perform reader = (.ok found, next)) :
    MovesOver reader next found := by
  rw [perform_round hReady.stage] at hRound
  rcases Step.ok_of_perform_bind hRound with
    ⟨start, _, hStart, hProceed⟩
  rcases ok_of_onSource yields_frameStart hReady.fault hStart with
    ⟨source, bs, rfl, hWord, hRest, hAhead⟩
  rcases start with _ | _ | n
  · cases hProceed
  · rcases hWord 0 rfl with ⟨rfl, _⟩
    have hTerminator :=
      (perform_proceed { reader with source := source }
        hReady.follow).symm.trans hProceed
    rcases Step.ok_of_perform_bind hTerminator with
      ⟨more, _, hNext, hPure⟩
    cases hPure
    exact movesOver_of_terminator hReady hRest hAhead hNext
  · rcases hWord (n + 1) rfl with ⟨rfl, _⟩
    rcases Step.ok_of_perform_bind hProceed with
      ⟨⟨⟩, _, hDecode, hPure⟩
    cases hPure
    exact movesOver_of_length hReady hRest hAhead hDecode

/- After a member or a frame, the reader is ready again. -/
theorem MovesOver.ready
    {found : Round}
    (hMoves : reader.MovesOver next found)
    (hReady : reader.Ready)
    (hMore : found ≠ .ended) :
    next.Ready ∧
      next.codec = reader.codec ∧
      next.source.remaining < reader.source.remaining := by
  cases hMoves with
  | last _ _ => contradiction
  | @member fields _ _ hRest hAhead hNext =>
    refine ⟨⟨?_, ?_, hAhead.fault.trans hReady.fault⟩, ?_, ?_⟩
    · rw [hNext]
      exact hReady.stage
    · rw [hNext]
      exact hReady.follow
    · rw [hNext]
    · have hSome := length_le_layout [.terminator, .header fields]
      simp only [List.length_cons, List.length_nil] at hSome
      rw [Source.remaining_eq, Source.remaining_eq, hRest,
        List.length_append]
      omega
  | @frame content _ hRest hAhead hNext _ _ =>
    refine ⟨⟨?_, ?_, hAhead.fault.trans hReady.fault⟩, ?_, ?_⟩
    · rw [hNext]
      exact hReady.stage
    · rw [hNext]
      exact hReady.follow
    · rw [hNext]
    · have hSome :=
        length_le_layout [.frame reader.checksums content]
      simp only [List.length_cons, List.length_nil] at hSome
      rw [Source.remaining_eq, Source.remaining_eq, hRest,
        List.length_append]
      omega

end ContainerReader

end SplitStream
