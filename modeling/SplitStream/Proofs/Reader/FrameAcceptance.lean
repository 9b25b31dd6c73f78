import SplitStream.Proofs.Reader.Following
import SplitStream.Proofs.Source.Yielding

/-
  Acceptance of single frames. What a reader of containers
  decodes is the layout of a frame: its checksums are those
  of the block and of the payload.

  Main declarations:
    * `ContainerReader.eq_sumsOf_of_verify`
    * `ContainerReader.Accepted`
    * `ContainerReader.Decoded`
    * `ContainerReader.accepted_of_decodeFrame`
    * `ContainerReader.accepted_of_clean`
-/

------------------------------------------------------------
-- Parts Of Frames
------------------------------------------------------------

namespace SplitStream

namespace ContainerReader

open Reading

variable {reader next : ContainerReader}

theorem ok_of_onSource
    {α : Type}
    {reading : Reading α}
    {StandsFor : Bytes → α → Prop}
    {a : α}
    (hReading : reading.Yields StandsFor)
    (hFault : reader.source.fault = none)
    (hRun :
      (onSource reading).perform reader = (.ok a, next)) :
    ∃ source bs,
      next = { reader with source := source } ∧
      StandsFor bs a ∧
      reader.source.rest = bs ++ source.rest ∧
      reader.source.Ahead source bs.length :=
  hReading.within hFault hRun

/- Checksums are recorded in the order of their kinds. -/
theorem yields_readSums
    (kinds : List Checksum) :
    (readSums kinds).Yields fun bs sums =>
      sums.map Prod.fst = kinds ∧ bs = sumsLayout sums := by
  induction kinds with
  | nil =>
    apply (yields_pure []).mono
    rintro bs sums ⟨rfl, rfl⟩
    exact ⟨rfl, rfl⟩
  | cons kind kinds ih =>
    apply ((yields_word _).bind fun sum =>
      ih.map fun sums => (kind, sum) :: sums).mono
    rintro bs sums
      ⟨front, back, sum, rfl, rfl, rest, ⟨hKinds, rfl⟩, rfl⟩
    exact ⟨by rw [List.map_cons, hKinds], rfl⟩

/- Checksums that are accepted are those of the data. -/
theorem eq_sumsOf_of_verify
    {scope : Checksum.Scope}
    {bs : Bytes}
    {sums : List (Checksum × UInt32)}
    (h : verify scope bs sums = .ok ()) :
    sums = sumsOf bs (sums.map Prod.fst) := by
  induction sums with
  | nil => rfl
  | cons sum sums ih =>
    rcases sum with ⟨kind, expected⟩
    unfold verify at h
    by_cases hSame : kind.compute bs = expected
    · simp only [hSame, if_true] at h
      rw [List.map_cons, sumsOf, List.map_cons, hSame]
      congr 1
      exact ih h
    · simp only [hSame, if_false] at h
      cases h

/- The parts of a frame are recorded one after another. -/
theorem Recorded.yields_read
    (checksums : Selection)
    (plain : Nat) :
    (Recorded.read checksums plain).Yields fun bs recorded =>
      bs = recorded.encode ∧
        recorded.FitsIn checksums plain := by
  have hPackedSums (packed : Nat) :
      (if packed = plain then
          pure []
        else
          readSums (checksums.kinds .packed) :
            Reading _).Yields fun bs sums =>
        sums.map Prod.fst =
            (if packed = plain then
              []
            else
              checksums.kinds .packed) ∧
          bs = sumsLayout sums := by
    by_cases hStored : packed = plain
    · simp only [hStored, if_true]
      exact yields_readSums []
    · simp only [hStored, if_false]
      exact yields_readSums _
  unfold Recorded.read
  apply Yields.unless
  intro hSize
  apply (yields_number _ 4).andThen
  rintro _ packed ⟨rfl, _⟩
  apply Yields.unless
  intro hOver
  apply (yields_readSums _).andThen
  rintro _ plainSums ⟨hPlainKinds, rfl⟩
  apply Yields.choose (hPackedSums packed)
  rintro _ packedSums ⟨hPackedKinds, rfl⟩
  apply (yields_exactly _ packed).andThen
  rintro _ payload ⟨rfl, rfl⟩
  apply yields_return
  refine ⟨?_, ?_⟩
  · simp only [Recorded.encode, Frame.length, List.append_nil]
  · exact
      { plain_le := Nat.le_of_not_lt hSize
        payload_le := Nat.le_of_not_lt hOver
        plain_kinds := hPlainKinds
        packed_kinds := hPackedKinds }

/- A payload is copied, or the codec reports the length. -/
theorem ok_of_unpack
    {payload : Bytes}
    {plain : Nat}
    (hRun :
      (unpack payload plain).perform reader = (.ok (), next)) :
    ∃ filled,
      next =
        { reader with staging := reader.staging.copy filled } ∧
      (payload.length = plain → filled = payload) ∧
      (payload.length ≠ plain →
        (reader.codec.decompress payload plain).report =
            .ok plain ∧
          filled =
            (reader.codec.decompress payload plain).written.take
              plain) := by
  unfold unpack at hRun
  rw [Step.perform_ofStep] at hRun
  by_cases hStored : payload.length = plain
  · simp only [hStored, if_true] at hRun
    cases hRun
    exact ⟨payload, rfl, fun _ => rfl, absurd hStored⟩
  · simp only [hStored, if_false, Staging.decompress] at hRun
    cases hReport :
        (reader.codec.decompress payload plain).report with
    | error status =>
      rw [hReport] at hRun
      cases hRun
    | ok n =>
      rw [hReport] at hRun
      by_cases hLength : n = plain
      · simp only [hLength, if_true] at hRun
        cases hRun
        exact
          ⟨_, rfl, fun hSame => absurd hSame hStored,
            fun _ => ⟨by rw [hLength], rfl⟩⟩
      · simp only [hLength, if_false] at hRun
        cases hRun

/- Bytes that become ready have the recorded checksums. -/
theorem ok_of_deliver
    {plain : Nat}
    {sums : List (Checksum × UInt32)}
    (hRun :
      (deliver plain sums).perform reader = (.ok (), next)) :
    next =
        { reader with
          staging := reader.staging.commit plain
          frames := reader.frames + 1 } ∧
      sums =
        sumsOf (reader.staging.commit plain).ready
          (sums.map Prod.fst) := by
  unfold deliver at hRun
  rw [Step.perform_bind_of_ok (Step.perform_get reader)] at hRun
  rcases Step.ok_of_perform_bind hRun with
    ⟨⟨⟩, _, hVerify, hSet⟩
  rw [Step.perform_ofExcept] at hVerify
  rcases Prod.mk.inj hVerify with ⟨hSums, rfl⟩
  rcases Prod.mk.inj hSet with ⟨_, rfl⟩
  exact ⟨rfl, eq_sumsOf_of_verify hSums⟩

------------------------------------------------------------
-- Whole Frames
------------------------------------------------------------

/-
  A reader has accepted a block: its source has stood before
  the frame of the block, and the codec has unpacked the
  payload unless it is the block.
-/
structure Accepted
    (reader next : ContainerReader)
    (content : PackedBlock) : Prop where
  block_le : content.block.length ≤ maxBlockSize
  packed_le : content.packed.length ≤ content.block.length
  next_eq :
    next =
      { reader with
        source := next.source
        staging := next.staging
        frames := reader.frames + 1 }
  rest :
    reader.source.rest =
      content.afterLength reader.checksums ++ next.source.rest
  ahead :
    reader.source.Ahead next.source
      (content.afterLength reader.checksums).length
  ready : next.staging.ready = content.block
  stored :
    content.packed.length = content.block.length →
      content.packed = content.block
  unpacked :
    content.packed.length < content.block.length →
      let transfer :=
        reader.codec.decompress content.packed
          content.block.length
      transfer.report = .ok content.block.length ∧
        content.block =
          (reader.staging.area.overwrite
            (transfer.written.take
              content.block.length)).front
            content.block.length

/- A payload that is not longer than its block stands for it. -/
theorem payload_eq
    {block payload : Bytes}
    (hLe : payload.length ≤ block.length)
    (hStored : payload.length = block.length → payload = block) :
    (PackedBlock.mk block payload).payload = payload := by
  rcases Nat.lt_or_eq_of_le hLe with hLess | hSame
  · exact PackedBlock.payload_of_packed hLess
  · rw [PackedBlock.payload_of_stored (Nat.le_of_eq hSame.symm)]
    exact (hStored hSame).symm

/- The parts that follow the length of a block. -/
theorem afterLength_eq
    {block payload : Bytes}
    (checksums : Selection)
    (hLe : payload.length ≤ block.length)
    (hStored : payload.length = block.length → payload = block) :
    (PackedBlock.mk block payload).afterLength checksums =
      Frame.length payload.length ++
        (sumsLayout (sumsOf block (checksums.kinds .plain)) ++
          (sumsLayout
              (sumsOf payload
                (if payload.length = block.length then
                  []
                else
                  checksums.kinds .packed)) ++
            payload)) := by
  have hPayload := payload_eq hLe hStored
  unfold PackedBlock.afterLength PackedBlock.packedSums
  simp only [hPayload, sumsLayout_sumsOf]
  by_cases hSame : payload.length = block.length
  · simp only [hSame, if_true, List.map_nil, List.flatten_nil]
  · simp only [hSame, if_false]

/-
  What a decoder has gone through: the checksums and the
  payload that it has read, and what it has put in its area.
-/
structure Decoded
    (reader next : ContainerReader)
    (plain : Nat)
    (plainSums packedSums : List (Checksum × UInt32))
    (payload filled : Bytes) : Prop where
  plain_le : plain ≤ maxBlockSize
  payload_le : payload.length ≤ plain
  next_eq :
    next =
      { reader with
        source := next.source
        staging := (reader.staging.copy filled).commit plain
        frames := reader.frames + 1 }
  rest :
    reader.source.rest =
      Frame.length payload.length ++
        (sumsLayout plainSums ++
          (sumsLayout packedSums ++
            (payload ++ next.source.rest)))
  ahead :
    reader.source.Ahead next.source
      ((Frame.length payload.length).length +
        ((sumsLayout plainSums).length +
          ((sumsLayout packedSums).length + payload.length)))
  plain_sums :
    plainSums =
      sumsOf ((reader.staging.copy filled).commit plain).ready
        (reader.checksums.kinds .plain)
  packed_sums :
    packedSums =
      sumsOf payload
        (if payload.length = plain then
          []
        else
          reader.checksums.kinds .packed)
  stored : payload.length = plain → filled = payload
  unpacked :
    payload.length ≠ plain →
      (reader.codec.decompress payload plain).report =
          .ok plain ∧
        filled =
          (reader.codec.decompress payload plain).written.take
            plain

/- A decoder that succeeds has gone through all parts. -/
theorem decoded_of_decodeFrame
    {plain : Nat}
    (hFault : reader.source.fault = none)
    (hDecode :
      (decodeFrame plain).perform reader = (.ok (), next)) :
    ∃ plainSums packedSums payload filled,
      reader.Decoded next plain plainSums packedSums payload
        filled := by
  rw [perform_decodeFrame_eq] at hDecode
  rcases Step.ok_of_perform_bind hDecode with
    ⟨recorded, _, hRead, hSettle⟩
  rcases ok_of_onSource (Recorded.yields_read _ _) hFault hRead
    with ⟨source, _, rfl, ⟨rfl, hFits⟩, hRest, hAhead⟩
  rcases Step.ok_of_perform_bind hSettle with
    ⟨⟨⟩, _, hVerify, hRun⟩
  rw [Step.perform_ofExcept] at hVerify
  rcases Prod.mk.inj hVerify with ⟨hSums, rfl⟩
  have hPackedSums := eq_sumsOf_of_verify hSums
  rcases Step.ok_of_perform_bind hRun with
    ⟨⟨⟩, _, hUnpack, hDeliver⟩
  rcases ok_of_unpack hUnpack with
    ⟨filled, rfl, hStored, hUnpacked⟩
  rcases ok_of_deliver hDeliver with ⟨rfl, hPlainSums⟩
  rw [hFits.packed_kinds] at hPackedSums
  rw [hFits.plain_kinds] at hPlainSums
  rw [Recorded.encode] at hRest hAhead
  refine
    ⟨recorded.plainSums, recorded.packedSums, recorded.payload,
      filled, ?_⟩
  exact
    { plain_le := hFits.plain_le
      payload_le := hFits.payload_le
      next_eq := rfl
      rest := by
        rw [hRest]
        simp only [List.append_assoc]
      ahead := by
        simpa only [List.length_append] using hAhead
      plain_sums := hPlainSums
      packed_sums := hPackedSums
      stored := hStored
      unpacked := hUnpacked }

/- What was decoded is the layout of the frame of a block. -/
theorem accepted_of_decodeFrame
    {plain : Nat}
    (hFault : reader.source.fault = none)
    (hDecode :
      (decodeFrame plain).perform reader = (.ok (), next)) :
    ∃ content,
      content.block.length = plain ∧
      reader.Accepted next content := by
  rcases decoded_of_decodeFrame hFault hDecode with
    ⟨plainSums, packedSums, payload, filled, h⟩
  let block := ((reader.staging.copy filled).commit plain).ready
  have hBlock : block.length = plain :=
    Scratch.length_front _ _
  have hReady : next.staging.ready = block := by
    rw [h.next_eq]
  have hLe : payload.length ≤ block.length := by
    rw [hBlock]
    exact h.payload_le
  have hSame :
      payload.length = block.length → payload = block := by
    intro hLength
    rw [hBlock] at hLength
    change _ = (reader.staging.area.overwrite filled).front plain
    rw [h.stored hLength, ← hLength, Scratch.front_overwrite]
  have hLayout := afterLength_eq reader.checksums hLe hSame
  rw [hBlock, ← h.plain_sums, ← h.packed_sums] at hLayout
  refine ⟨⟨block, payload⟩, hBlock, ?_⟩
  exact
    { block_le := by
        rw [hBlock]
        exact h.plain_le
      packed_le := hLe
      next_eq := by
        rw [h.next_eq]
      rest := by
        rw [hLayout, h.rest]
        simp only [List.append_assoc]
      ahead := by
        rw [hLayout]
        simp only [List.length_append]
        exact h.ahead
      ready := hReady
      stored := hSame
      unpacked := by
        intro hLess
        rw [hBlock] at hLess ⊢
        rcases h.unpacked (Nat.ne_of_lt hLess) with
          ⟨hReport, hFilled⟩
        refine ⟨hReport, ?_⟩
        rw [← hFilled]
        rfl }

------------------------------------------------------------
-- First Frames
------------------------------------------------------------

/- Collecting stops at the first failure. -/
theorem failure_of_readFrame
    {e : Error}
    (hFailed :
      readFrame.perform
          { reader with staging := reader.staging.clear } =
        (.error e, next)) :
    (FrameReader.readToEnd reader).failure = some e := by
  have hRead :
      (FrameReader.readFrame :
        Action ContainerReader Bool).perform
          { reader with staging := reader.staging.clear } =
        (.error e, next) :=
    hFailed
  change
    (FrameReader.drainRounds (reader.source.remaining + 1)
      { reader with staging := reader.staging.clear }
      (.ofBytes reader.staging.ready)).failure =
      some e
  rw [FrameReader.drainRounds, hRead]

/-
  A reader that stands before a frame and ends cleanly has
  accepted a block of the length that is found there.
-/
theorem accepted_of_clean
    {n : Nat}
    {tail : Bytes}
    (hStage : reader.stage = .frames)
    (hFault : reader.source.fault = none)
    (hSmall : n + 1 < Bytes.wordCount 4)
    (hRest :
      reader.source.rest = Frame.length (n + 1) ++ tail)
    (hClean : (FrameReader.readToEnd reader).failure = none) :
    ∃ (opened next : ContainerReader) (content : PackedBlock),
      opened.codec = reader.codec ∧
      opened.checksums = reader.checksums ∧
      opened.source.rest = tail ∧
      content.block.length = n + 1 ∧
      opened.Accepted next content := by
  let cleared : ContainerReader :=
    { reader with staging := reader.staging.clear }
  have hFrames : cleared.stage = .frames := hStage
  rcases perform_onSource (consumes_frameStart hSmall) cleared
    hFault hRest with ⟨source, hStart, hAhead⟩
  let opened : ContainerReader := { cleared with source := source }
  have hRound :
      round.perform cleared =
        (do decodeFrame (n + 1); return .frame :
          Action ContainerReader FrameReader.Round).perform opened := by
    rw [perform_round hFrames, Step.perform_bind_of_ok hStart]
    rfl
  cases hDecode : (decodeFrame (n + 1)).perform opened with
  | mk result next =>
    cases result with
    | error e =>
      rw [Step.perform_bind_of_error hDecode] at hRound
      have hFailed :
          readFrame.perform cleared = (.error e, next) :=
        perform_readFrameRounds _ hRound
      rw [failure_of_readFrame hFailed] at hClean
      cases hClean
    | ok _ =>
      rcases accepted_of_decodeFrame
        (hAhead.fault.trans hFault) hDecode with
        ⟨content, hLength, hAccepted⟩
      exact
        ⟨opened, next, content, rfl, rfl,
          hAhead.rest_of_eq hRest rfl, hLength, hAccepted⟩

end ContainerReader

end SplitStream
