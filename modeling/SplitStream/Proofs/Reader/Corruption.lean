import SplitStream.Proofs.Checksum.Detection
import SplitStream.Proofs.Reader.Leading

/-
  Frames in which a byte has been replaced. If a checksum
  covers the byte, the reader refuses the frame. It has moved
  over the whole frame by then and has nothing ready, so it
  goes on with the next frame as if nothing had happened.

  Main declarations:
    * `PackedBlock.Covered`
    * `ContainerReader.Spoiled`
    * `ContainerReader.spoiled_of_covered`
    * `ContainerReader.refuses_spoiled`
    * `ContainerReader.Catches`
    * `ContainerReader.catches_of_complete`
-/

------------------------------------------------------------
-- Covered Bytes
------------------------------------------------------------

namespace SplitStream

namespace PackedBlock

/-
  The checksums of the payload as it is written: those of the
  block if the block is stored.
-/
def payloadKinds
    (checksums : Selection)
    (content : PackedBlock) : List Checksum :=
  if content.payload.length = content.block.length then
    checksums.kinds .plain
  else
    checksums.kinds .packed

/- The position of the payload in the layout of a frame. -/
def payloadStart
    (checksums : Selection)
    (content : PackedBlock) : Nat :=
  Frame.headerSize +
    4 * Frame.sumCount checksums
      (content.payload.length = content.block.length)

/-
  The positions in the layout of a frame that a checksum
  covers: those of the checksums themselves, and those of the
  payload if there is a checksum of it.
-/
inductive Covered
    (checksums : Selection)
    (content : PackedBlock)
    (k : Nat) : Prop where
  | sum :
      Frame.headerSize ≤ k →
      k < content.payloadStart checksums →
        Covered checksums content k
  | payload :
      content.payloadKinds checksums ≠ [] →
      content.payloadStart checksums ≤ k →
      k < (content.encode checksums).length →
        Covered checksums content k

end PackedBlock

------------------------------------------------------------
-- Spoiled Parts
------------------------------------------------------------

namespace ContainerReader

open FrameReader Reading Segment

variable
  {reader : ContainerReader} {checksums : Selection}
  {content : PackedBlock} {recorded : Recorded}

/-
  The parts of a frame, but for one that has been altered:
  recorded checksums, or a payload with checksums.
-/
inductive Spoiled
    (checksums : Selection)
    (content : PackedBlock) : Recorded → Prop where
  | plainSums {sums : List (Checksum × UInt32)} :
      sums ≠ (recordedOf checksums content).plainSums →
      sums.map Prod.fst = checksums.kinds .plain →
        Spoiled checksums content
          { recordedOf checksums content with plainSums := sums }
  | packedSums {sums : List (Checksum × UInt32)} :
      sums ≠ (recordedOf checksums content).packedSums →
      sums.map Prod.fst =
          (recordedOf checksums content).packedSums.map
            Prod.fst →
        Spoiled checksums content
          { recordedOf checksums content with packedSums := sums }
  | payload {payload : Bytes} :
      content.payloadKinds checksums ≠ [] →
      content.payload.Altered payload →
        Spoiled checksums content
          { recordedOf checksums content with payload := payload }

/- All parts can still be taken apart. -/
theorem Spoiled.fitsIn
    (h : Spoiled checksums content recorded)
    (hFits : content.Fits) :
    recorded.FitsIn checksums content.block.length := by
  have hWhole := fitsIn_recordedOf checksums hFits
  cases h with
  | plainSums _ hKinds =>
    exact { hWhole with plain_kinds := hKinds }
  | packedSums _ hKinds =>
    exact
      { hWhole with
        packed_kinds := hKinds.trans hWhole.packed_kinds }
  | payload _ hAltered =>
    have hLength := hAltered.length_eq
    exact
      { plain_le := hWhole.plain_le
        payload_le := hLength ▸ hWhole.payload_le
        plain_kinds := hWhole.plain_kinds
        packed_kinds := by
          rw [hLength]
          exact hWhole.packed_kinds }

/- Where other words stand, other checksums are recorded. -/
theorem exists_sums_of_set
    (sums : List (Checksum × UInt32))
    (k : Nat)
    (b : UInt8)
    (hOther : (sumsLayout sums).set k b ≠ sumsLayout sums) :
    ∃ others,
      others ≠ sums ∧
      others.map Prod.fst = sums.map Prod.fst ∧
      sumsLayout others = (sumsLayout sums).set k b := by
  have hLength :
      ((sumsLayout sums).set k b).length =
        4 * (sums.map Prod.fst).length := by
    rw [List.length_set, length_sumsLayout, List.length_map]
  rcases exists_sumsLayout _ hLength with
    ⟨others, hKinds, hLayout⟩
  refine ⟨others, ?_, hKinds, hLayout⟩
  rintro rfl
  exact hOther hLayout.symm

/- The checksums end where the payload starts. -/
theorem payloadStart_eq
    (checksums : Selection)
    (content : PackedBlock) :
    content.payloadStart checksums =
      8 +
        ((sumsLayout
            (recordedOf checksums content).plainSums).length +
          (sumsLayout
            (recordedOf checksums content).packedSums).length) := by
  have hHeader : Frame.headerSize = 8 := rfl
  rw [PackedBlock.payloadStart, Frame.sumCount, hHeader]
  by_cases hStored :
      content.payload.length = content.block.length
  · simp [recordedOf, sumsOf, Selection.count, hStored]
  · simp [recordedOf, sumsOf, Selection.count, hStored]
    omega

/- A byte behind two lengths is replaced behind them. -/
theorem set_behind_lengths
    (n m j : Nat)
    (b : UInt8)
    (rest : Bytes) :
    (Frame.length n ++ (Frame.length m ++ rest)).set (8 + j) b =
      Frame.length n ++ (Frame.length m ++ rest.set j b) := by
  have hLength (n : Nat) : (Frame.length n).length = 4 :=
    Bytes.length_bigEndian 4 n
  have hFirst : 8 + j - (Frame.length n).length = 4 + j := by
    rw [hLength]
    omega
  have hSecond : 4 + j - (Frame.length m).length = j := by
    rw [hLength]
    omega
  rw [List.set_append_right _ _ (by rw [hLength]; omega), hFirst,
    List.set_append_right _ _ (by rw [hLength]; omega), hSecond]

/-
  A covered byte that is replaced spoils one of the parts. It
  stands behind both lengths, in the plain checksums, in the
  packed ones, or in the payload.
-/
theorem spoiled_of_covered
    {k : Nat}
    {b : UInt8}
    (hCovered : content.Covered checksums k)
    (hOther :
      (content.encode checksums).set k b ≠
        content.encode checksums) :
    ∃ recorded,
      Spoiled checksums content recorded ∧
      (content.encode checksums).set k b =
        Frame.length content.block.length ++ recorded.encode := by
  have hBehind : 8 ≤ k := by
    cases hCovered with
    | sum hLe _ => exact hLe
    | payload _ hLe _ =>
      exact Nat.le_trans (Nat.le_add_right 8 _) hLe
  have hStart := payloadStart_eq checksums content
  have hEncode :
      content.encode checksums =
        Frame.length content.block.length ++
          (recordedOf checksums content).encode := by
    rw [PackedBlock.encode_eq, encode_recordedOf]
  rcases Nat.exists_eq_add_of_le hBehind with ⟨j, rfl⟩
  rw [hEncode, Recorded.encode, set_behind_lengths] at hOther ⊢
  generalize hWhole : recordedOf checksums content = whole
    at hOther hStart ⊢
  rcases Nat.lt_or_ge j (sumsLayout whole.plainSums).length with
    hPlain | hPlain
  · rw [List.set_append_left _ _ hPlain] at hOther ⊢
    rcases exists_sums_of_set whole.plainSums j b
      (fun hSame => hOther (by rw [hSame])) with
      ⟨sums, hSums, hKinds, hLayout⟩
    subst hWhole
    refine
      ⟨_, .plainSums hSums (hKinds.trans (map_fst_sumsOf _ _)), ?_⟩
    rw [← hLayout]
    rfl
  rw [List.set_append_right _ _ hPlain] at hOther ⊢
  rcases Nat.lt_or_ge (j - (sumsLayout whole.plainSums).length)
      (sumsLayout whole.packedSums).length with
    hPacked | hPacked
  · rw [List.set_append_left _ _ hPacked] at hOther ⊢
    rcases exists_sums_of_set whole.packedSums _ b
      (fun hSame => hOther (by rw [hSame])) with
      ⟨sums, hSums, hKinds, hLayout⟩
    subst hWhole
    refine ⟨_, .packedSums hSums hKinds, ?_⟩
    rw [← hLayout]
    rfl
  · rw [List.set_append_right _ _ hPacked] at hOther ⊢
    have hAltered :=
      Bytes.altered_set
        (fun hSame => hOther (by rw [hSame]))
    have hSome : content.payloadKinds checksums ≠ [] := by
      cases hCovered with
      | sum _ hBefore => omega
      | payload hSome _ _ => exact hSome
    subst hWhole
    refine ⟨_, .payload hSome hAltered, ?_⟩
    simp [Recorded.encode]

------------------------------------------------------------
-- Refusals
------------------------------------------------------------

/- A recorded checksum is not that of the data. -/
inductive Mismatch : Error → Prop where
  | intro (kind : Checksum) (scope : Checksum.Scope)
      {expected actual : UInt32} :
      actual ≠ expected →
        Mismatch (.checksumMismatch kind scope expected actual)

/- Checksums of other data are not accepted. -/
theorem mismatch_of_ne
    (scope : Checksum.Scope)
    (bs : Bytes)
    (sums : List (Checksum × UInt32))
    (hOther : sums ≠ sumsOf bs (sums.map Prod.fst)) :
    ∃ e, verify scope bs sums = .error e ∧ Mismatch e := by
  rcases hVerify : verify scope bs sums with e | ⟨⟩
  · refine ⟨e, rfl, ?_⟩
    clear hOther
    induction sums with
    | nil => cases hVerify
    | cons sum sums ih =>
      rcases sum with ⟨kind, expected⟩
      unfold verify at hVerify
      by_cases hSame : kind.compute bs = expected
      · simp only [hSame, if_true] at hVerify
        exact ih hVerify
      · simp only [hSame, if_false] at hVerify
        cases hVerify
        exact .intro kind scope hSame
  · exact absurd (eq_sumsOf_of_verify hVerify) hOther

/- Checksums of altered data are others, if there are any. -/
theorem sumsOf_ne_of_altered
    {bs cs : Bytes}
    {kinds : List Checksum}
    (hSome : kinds ≠ [])
    (hAltered : bs.Altered cs) :
    sumsOf bs kinds ≠ sumsOf cs kinds := by
  cases kinds with
  | nil => contradiction
  | cons kind kinds =>
    intro hSame
    have hFirst := (List.cons.inj hSame).1
    exact
      kind.compute_ne_of_altered hAltered (Prod.mk.inj hFirst).2

/-
  An action refuses: a checksum does not match, and the reader
  is left with nothing more than it had ready.
-/
def Refuses
    (action : Action ContainerReader Unit)
    (reader : ContainerReader) : Prop :=
  ∃ e area,
    action.perform reader =
      (.error e,
        { reader with
          staging := { reader.staging with area := area } }) ∧
    Mismatch e

/- A packed payload is refused before it is unpacked. -/
theorem refuses_settle_of_packed
    (plain : Nat)
    (hOther :
      recorded.packedSums ≠
        sumsOf recorded.payload
          (recorded.packedSums.map Prod.fst)) :
    Refuses (recorded.settle plain) reader := by
  rcases mismatch_of_ne .packed _ _ hOther with
    ⟨e, hVerify, hMismatch⟩
  refine ⟨e, reader.staging.area, ?_, hMismatch⟩
  apply Step.perform_bind_of_error
  rw [Step.perform_ofExcept, hVerify]

/- A block is refused when it has been unpacked. -/
theorem refuses_settle_of_plain
    {block : Bytes}
    (hPacked :
      recorded.packedSums =
        sumsOf recorded.payload
          (recorded.packedSums.map Prod.fst))
    (hUnpack :
      (unpack recorded.payload block.length).perform reader =
        (.ok (),
          { reader with staging := reader.staging.copy block }))
    (hOther :
      recorded.plainSums ≠
        sumsOf block (recorded.plainSums.map Prod.fst)) :
    Refuses (recorded.settle block.length) reader := by
  rcases mismatch_of_ne .plain _ _ hOther with
    ⟨e, hVerify, hMismatch⟩
  have hReady :
      ((reader.staging.copy block).commit block.length).ready =
        block :=
    Scratch.front_overwrite _ _
  refine ⟨e, (reader.staging.copy block).area, ?_, hMismatch⟩
  unfold Recorded.settle
  rw [Step.perform_bind_of_ok (a := ()),
    Step.perform_bind_of_ok hUnpack, deliver,
    Step.perform_bind_of_ok (Step.perform_get _)]
  · apply Step.perform_bind_of_error
    rw [Step.perform_ofExcept, hReady, hVerify]
    rfl
  · rw [Step.perform_ofExcept, hPacked, verify_sumsOf]

/- Whichever part is spoiled, the frame is refused. -/
theorem refuses_settle_of_spoiled
    (h : Spoiled checksums content recorded)
    (hRestores :
      content.packed.length < content.block.length →
        reader.codec.Restores content.packed content.block) :
    Refuses (recorded.settle content.block.length) reader := by
  cases h with
  | plainSums hOther hKinds =>
    apply refuses_settle_of_plain
    · exact (congrArg _ (map_fst_sumsOf _ _)).symm
    · exact perform_unpack reader content hRestores
    · rw [hKinds]
      exact hOther
  | packedSums hOther hKinds =>
    apply refuses_settle_of_packed
    rw [hKinds, recordedOf, map_fst_sumsOf]
    exact hOther
  | @payload payload hSome hAltered =>
    have hLength := hAltered.length_eq
    unfold PackedBlock.payloadKinds at hSome
    by_cases hStored :
        content.payload.length = content.block.length
    · have hBlock : content.payload = content.block := by
        apply PackedBlock.payload_of_stored
        rw [content.length_payload] at hStored
        omega
      rw [if_pos hStored] at hSome
      rw [hBlock] at hAltered
      rw [← hStored, ← hLength]
      apply refuses_settle_of_plain
      · simp [recordedOf, hStored, sumsOf]
      · simp [unpack]
      · rw [recordedOf, map_fst_sumsOf]
        exact sumsOf_ne_of_altered hSome hAltered
    · rw [if_neg hStored] at hSome
      apply refuses_settle_of_packed
      rw [recordedOf, map_fst_sumsOf, if_neg hStored]
      exact sumsOf_ne_of_altered hSome hAltered

/-
  A reader refuses a frame and stands behind it: nothing is
  ready, and no frame has been counted.
-/
structure Passed
    (reader next : ContainerReader)
    (tail : Bytes) : Prop where
  ready : available next = 0
  frames : next.frames = reader.frames
  codec : next.codec = reader.codec
  checksums : next.checksums = reader.checksums
  before : next.Before [] tail

/- A spoiled frame is refused, and is behind the reader. -/
theorem refuses_spoiled
    {tail : Bytes}
    (hBefore :
      reader.Before []
        (Frame.length content.block.length ++
          (recorded.encode ++ tail)))
    (hFits : content.Fits)
    (hRestores :
      content.packed.length < content.block.length →
        reader.codec.Restores content.packed content.block)
    (hSpoiled : Spoiled reader.checksums content recorded) :
    ∃ e next,
      readFrame.perform reader = (.error e, next) ∧
      Mismatch e ∧
      reader.Passed next tail := by
  let idle : ContainerReader := cleared reader
  have hIdle : idle.stage = .frames := hBefore.stage
  have hRest :
      idle.source.rest =
        Frame.length content.block.length ++
          (recorded.encode ++ tail) :=
    hBefore.rest
  have hSmall : content.block.length < Bytes.wordCount 4 :=
    lt_wordCount hFits.block_le
  rcases perform_onSource (consumes_frameStart hSmall) idle
    hBefore.fault hRest with ⟨s₁, hStart, hAhead₁⟩
  have hFault₁ := hAhead₁.fault.trans hBefore.fault
  have hRest₁ := hAhead₁.rest_of_eq hRest rfl
  rcases perform_decodeFrame_of_fits { idle with source := s₁ }
    (hSpoiled.fitsIn hFits) hFault₁ hRest₁ with
    ⟨s₂, hDecode, hAhead₂⟩
  have hRefuses :
      Refuses (recorded.settle content.block.length)
        { idle with source := s₂ } :=
    refuses_settle_of_spoiled hSpoiled hRestores
  rcases hRefuses with ⟨e, area, hSettle, hMismatch⟩
  have hRound :
      round.perform idle =
        (.error e,
          { idle with
            source := s₂
            staging := { idle.staging with area := area } }) := by
    rw [perform_round hIdle, Step.perform_bind_of_ok hStart]
    rcases Nat.exists_eq_succ_of_ne_zero
      (Nat.pos_iff_ne_zero.mp hFits.block_pos) with
      ⟨plain, hPlain⟩
    rw [hPlain] at hDecode hSettle ⊢
    exact Step.perform_bind_of_error (hDecode.trans hSettle)
  refine ⟨e, _, perform_readFrameRounds _ hRound, hMismatch, ?_⟩
  exact
    { ready := rfl
      frames := rfl
      codec := rfl
      checksums := rfl
      before :=
        { stage := hBefore.stage
          follow := hBefore.follow
          fault := hAhead₂.fault.trans hFault₁
          rest := hAhead₂.rest_of_eq hRest₁ rfl
          readable := by simp } }

------------------------------------------------------------
-- Whole Containers
------------------------------------------------------------

/-
  A reader that follows members catches an error: it delivers
  some blocks, refuses the next frame because of a checksum,
  and then delivers further blocks and ends cleanly. Behind
  the refused frame nothing is ready, and only the frames that
  were delivered are counted.
-/
inductive Catches
    (codec : Codec)
    (source : Source)
    (front back : List Bytes) : Prop where
  | intro {opened : Source} {e : Error}
      {reader before after : ContainerReader} :
      (start codec).perform source = (.ok reader, opened) →
      LeadsTo (reader.follow true) front before →
      readFrame.perform before = (.error e, after) →
      Mismatch e →
      available after = 0 →
      after.frames = front.length →
      Delivers after back none →
        Catches codec source front back

/-
  Before a frame of a container, a byte of it is replaced in
  the layout of the frame.
-/
theorem set_layout
    (front : List Segment)
    (segment : Segment)
    (back : List Segment)
    {k : Nat}
    (hInside : k < segment.encode.length)
    (b : UInt8) :
    (layout (front ++ segment :: back)).set
        ((layout front).length + k) b =
      layout front ++ (segment.encode.set k b ++ layout back) := by
  rw [layout_append, layout_cons,
    List.set_append_right _ _ (Nat.le_add_right _ _),
    Nat.add_sub_cancel_left, List.set_append_left _ _ hInside]

/- A covered byte lies inside the layout of its frame. -/
theorem lt_of_covered
    {k : Nat}
    (h : content.Covered checksums k) :
    k < (content.encode checksums).length := by
  have hLength := content.length_encode checksums
  cases h with
  | sum _ hBefore =>
    rw [PackedBlock.payloadStart] at hBefore
    omega
  | payload _ _ hInside => exact hInside

/-
  Whichever covered byte of a container is replaced, a reader
  catches the error at the frame that the byte belongs to.
-/
theorem catches_of_complete
    {codec : Codec}
    {source : Source}
    {front back : List Segment}
    {k : Nat}
    {b : UInt8}
    (hComplete :
      Complete (front ++ .frame checksums content :: back))
    (hReadable :
      ∀ segment ∈ front ++ .frame checksums content :: back,
        segment.ReadableBy codec)
    (hCovered : content.Covered checksums k)
    (hOther :
      (content.encode checksums).set k b ≠
        content.encode checksums)
    (hFault : source.fault = none)
    (hRest :
      source.rest =
        (layout (front ++ .frame checksums content :: back)).set
          ((layout front).length + k) b) :
    Catches codec source (Segment.blocks front)
      (Segment.blocks back) := by
  generalize hAll : front ++ .frame checksums content :: back =
    segments at hComplete
  rcases hComplete with ⟨hRegular, hFramed⟩
  rename_i fields rest
  rcases front with _ | ⟨first, front⟩
  · cases hAll
  cases hAll
  rcases hFramed.split with ⟨hLeads, hFits, hBack⟩
  rcases spoiled_of_covered hCovered hOther with
    ⟨recorded, hSpoiled, hEncode⟩
  have hFrame :
      (Segment.frame checksums content).encode.set k b =
        Frame.length content.block.length ++ recorded.encode :=
    hEncode
  rw [set_layout _ _ _ (lt_of_covered hCovered), hFrame,
    layout_cons, List.append_assoc, List.append_assoc] at hRest
  rcases start_of_header hRegular
    (hReadable (.header fields) List.mem_cons_self) hFault hRest
    with ⟨reader, opened, hStart, hAhead, hReader⟩
  have hBefore :
      (standing opened fields codec).Before front
        (Frame.length content.block.length ++
          (recorded.encode ++ layout back)) :=
    { stage := rfl
      follow := rfl
      fault := hAhead.fault.trans hFault
      rest := hAhead.rest_of_eq hRest rfl
      readable := by
        intro segment hSegment
        apply hReadable
        simp [hSegment] }
  rcases arrives_of_leads hLeads _ hBefore rfl with
    ⟨before, last, hArrives⟩
  have hContent :
      (Segment.frame checksums content).ReadableBy last.codec := by
    rw [hArrives.codec_eq]
    apply hReadable
    simp
  rw [← hArrives.checksums_eq] at hSpoiled hBack
  rcases refuses_spoiled hArrives.stands hFits hContent hSpoiled
    with ⟨e, after, hRead, hMismatch, hPassed⟩
  have hAfter : after.Before back [] :=
    { stage := hPassed.before.stage
      follow := hPassed.before.follow
      fault := hPassed.before.fault
      rest := by
        rw [List.append_nil]
        exact hPassed.before.rest
      readable := by
        rw [hPassed.codec, hArrives.codec_eq]
        intro segment hSegment
        apply hReadable
        simp [hSegment] }
  rw [← hPassed.checksums] at hBack
  have hLeadsTo := hArrives.leads
  rw [← hReader] at hLeadsTo
  have hFrames : after.frames = (Segment.blocks front).length := by
    rw [hPassed.frames, hArrives.frames_eq]
    exact Nat.zero_add _
  exact
    .intro hStart hLeadsTo (hArrives.same.trans hRead) hMismatch
      hPassed.ready hFrames
      (delivers_of_before hBack hAfter Header.take_nil_ne_magic)

end ContainerReader

end SplitStream
