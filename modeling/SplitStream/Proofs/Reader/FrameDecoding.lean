import SplitStream.Reader.Container
import SplitStream.Proofs.Container.Segments
import SplitStream.Proofs.Source.Heredity

/-
  Decoding of single frames. A reader of containers that
  stands before the frame of a block makes the block ready,
  provided that the codec unpacks the payload to the block.

  Main declarations:
    * `ContainerReader.perform_onSource`
    * `ContainerReader.consumes_readSums`
    * `ContainerReader.Recorded`
    * `ContainerReader.Recorded.hereditary_read`
    * `ContainerReader.perform_decodeFrame_of_fits`
    * `ContainerReader.perform_decodeFrame`
-/

------------------------------------------------------------
-- Parts Of Frames
------------------------------------------------------------

namespace SplitStream

open Reading

/- The word in front of a frame is read as a length. -/
theorem Reading.consumes_frameStart
    {n : Nat}
    (h : n < Bytes.wordCount 4) :
    frameStart.Consumes (Frame.length n) (some n) := by
  intro source tail hFault hRest
  rcases perform_upTo source 4 hFault with ⟨next, hNext, hAhead⟩
  have hTake : source.rest.take 4 = Frame.length n := by
    rw [hRest, Frame.length,
      List.take_left' (Bytes.length_bigEndian 4 n)]
  rw [hTake] at hNext hAhead
  refine ⟨next, ?_, hAhead⟩
  rw [frameStart, Step.perform_bind_of_ok hNext]
  simp [Frame.length, Bytes.ofBigEndian_bigEndian_of_lt h,
    ← List.length_eq_zero_iff]

theorem Reading.consumes_frameLength
    {n : Nat}
    (h : n < Bytes.wordCount 4) :
    frameLength.Consumes (Frame.length n) n :=
  consumes_number _ h

namespace ContainerReader

variable {α : Type}

/- A reading that consumes its bytes moves the source only. -/
theorem perform_onSource
    {reading : Reading α}
    {bs tail : Bytes}
    {a : α}
    (hReading : reading.Consumes bs a)
    (reader : ContainerReader)
    (hFault : reader.source.fault = none)
    (hRest : reader.source.rest = bs ++ tail) :
    ∃ source,
      (onSource reading).perform reader =
        (.ok a, { reader with source := source }) ∧
      reader.source.Ahead source bs.length :=
  hReading.within reader hFault hRest

/- The checksums of some bytes beside their kinds. -/
def sumsOf
    (bs : Bytes)
    (kinds : List Checksum) : List (Checksum × UInt32) :=
  kinds.map fun kind => (kind, kind.compute bs)

@[simp]
theorem map_fst_sumsOf
    (bs : Bytes)
    (kinds : List Checksum) :
    (sumsOf bs kinds).map Prod.fst = kinds := by
  simp [sumsOf, Function.comp_def]

/- The layout of recorded checksums. -/
def sumsLayout
    (sums : List (Checksum × UInt32)) : Bytes :=
  sums.flatMap fun sum => Bytes.bigEndian 4 sum.2.toNat

theorem sumsLayout_sumsOf
    (bs : Bytes)
    (kinds : List Checksum) :
    sumsLayout (sumsOf bs kinds) =
      (kinds.map (Frame.sum bs)).flatten := by
  rw [sumsLayout, sumsOf, List.flatMap_map, List.flatMap_def]
  rfl

@[simp]
theorem length_sumsLayout
    (sums : List (Checksum × UInt32)) :
    (sumsLayout sums).length = 4 * sums.length := by
  induction sums with
  | nil => rfl
  | cons sum sums ih =>
    rw [sumsLayout, List.flatMap_cons, List.length_append,
      Bytes.length_bigEndian, List.length_cons]
    change 4 + (sumsLayout sums).length = _
    omega

/- Any words may stand for checksums. -/
theorem exists_sumsLayout
    (kinds : List Checksum)
    {bs : Bytes}
    (hLength : bs.length = 4 * kinds.length) :
    ∃ sums,
      sums.map Prod.fst = kinds ∧ sumsLayout sums = bs := by
  induction kinds generalizing bs with
  | nil =>
    rw [List.length_eq_zero_iff.mp hLength]
    exact ⟨[], rfl, rfl⟩
  | cons kind kinds ih =>
    rw [List.length_cons] at hLength
    have hFront : (bs.take 4).length = 4 := by
      rw [List.length_take]
      omega
    have hBack : (bs.drop 4).length = 4 * kinds.length := by
      rw [List.length_drop]
      omega
    have hLess := Bytes.ofBigEndian_lt (bs.take 4)
    have hWord := Bytes.bigEndian_ofBigEndian (bs.take 4)
    rw [hFront] at hLess hWord
    rcases ih hBack with ⟨sums, rfl, hSums⟩
    refine
      ⟨(kind, UInt32.ofNat (Bytes.ofBigEndian (bs.take 4))) ::
        sums, rfl, ?_⟩
    rw [sumsLayout, List.flatMap_cons,
      UInt32.toNat_ofNat_of_lt' hLess, hWord]
    change _ ++ sumsLayout sums = bs
    rw [hSums, List.take_append_drop]

/- Checksums are read in the order of their kinds. -/
theorem consumes_readSums
    (sums : List (Checksum × UInt32)) :
    (readSums (sums.map Prod.fst)).Consumes (sumsLayout sums)
      sums := by
  induction sums with
  | nil => exact consumes_pure []
  | cons sum sums ih =>
    exact
      (consumes_word _ sum.2).bind
        (ih.bind_nil (consumes_pure _))

theorem hereditary_readSums
    {Holds : ∀ {α : Type}, Reading α → Prop}
    (h : Hereditary Holds)
    (kinds : List Checksum) :
    Holds (readSums kinds) := by
  induction kinds with
  | nil => exact h.of_pure []
  | cons kind kinds ih =>
    unfold readSums
    apply h.of_bind (h.word .frameChecksum)
    intro sum
    apply h.of_bind ih
    intro sums
    exact h.of_pure _

/- Recorded checksums of the same bytes are accepted. -/
theorem verify_sumsOf
    (scope : Checksum.Scope)
    (bs : Bytes)
    (kinds : List Checksum) :
    verify scope bs (sumsOf bs kinds) = .ok () := by
  induction kinds with
  | nil => rfl
  | cons kind kinds ih =>
    simpa [sumsOf, verify] using ih

/- The block is put into the staging area. -/
theorem perform_unpack
    (reader : ContainerReader)
    (content : PackedBlock)
    (hRestores :
      content.packed.length < content.block.length →
        reader.codec.Restores content.packed content.block) :
    (unpack content.payload content.block.length).perform
        reader =
      (.ok (),
        { reader with
          staging := reader.staging.copy content.block }) := by
  rcases Nat.lt_or_ge content.packed.length
      content.block.length with hPacked | hStored
  · have hLength : content.packed.length ≠ content.block.length :=
      Nat.ne_of_lt hPacked
    rcases hRestores hPacked with ⟨hReport, hWritten⟩
    simp [unpack, PackedBlock.payload_of_packed hPacked, hLength,
      Staging.decompress, hReport, hWritten]
  · simp [unpack, PackedBlock.payload_of_stored hStored]

/- A block whose checksums are recorded becomes ready. -/
theorem perform_deliver
    (reader : ContainerReader)
    (staging : Staging)
    (block : Bytes)
    (kinds : List Checksum)
    (hStaging : reader.staging = staging.copy block) :
    (deliver block.length (sumsOf block kinds)).perform reader =
      (.ok (),
        { reader with
          staging :=
            { area := reader.staging.area, ready := block }
          frames := reader.frames + 1 }) := by
  have hReady :
      reader.staging.commit block.length =
        { area := reader.staging.area, ready := block } := by
    simp [hStaging, Staging.commit, Staging.copy]
  rw [deliver, Step.perform_bind_of_ok (Step.perform_get reader)]
  simp only [hReady]
  rw [Step.perform_bind_of_ok (a := ())]
  · rfl
  · rw [Step.perform_ofExcept, verify_sumsOf]

------------------------------------------------------------
-- Recorded Parts
------------------------------------------------------------

/- What a frame holds behind the length of its block. -/
structure Recorded where
  plainSums : List (Checksum × UInt32)
  packedSums : List (Checksum × UInt32)
  payload : Bytes

namespace Recorded

/- The layout of the parts. -/
def encode
    (recorded : Recorded) : Bytes :=
  Frame.length recorded.payload.length ++
    (sumsLayout recorded.plainSums ++
      (sumsLayout recorded.packedSums ++ recorded.payload))

/-
  A reader of frames with the given checksums takes the parts
  for those of a block of `plain` bytes.
-/
structure FitsIn
    (recorded : Recorded)
    (checksums : Selection)
    (plain : Nat) : Prop where
  plain_le : plain ≤ maxBlockSize
  payload_le : recorded.payload.length ≤ plain
  plain_kinds :
    recorded.plainSums.map Prod.fst = checksums.kinds .plain
  packed_kinds :
    recorded.packedSums.map Prod.fst =
      if recorded.payload.length = plain then
        []
      else
        checksums.kinds .packed

/- Check and unpack the parts, and make the block ready. -/
def settle
    (recorded : Recorded)
    (plain : Nat) : Action ContainerReader Unit := do
  ofExcept (verify .packed recorded.payload recorded.packedSums)
  unpack recorded.payload plain
  deliver plain recorded.plainSums

/- Read the parts of the frame of a block of `plain` bytes. -/
def read
    (checksums : Selection)
    (plain : Nat) : Reading Recorded := do
  if maxBlockSize < plain then
    throw (.corruptFrame (.plainLength plain))
  let packed ← frameLength
  if plain < packed then
    throw (.corruptFrame (.packedBeyondPlain packed plain))
  let plainSums ← readSums (checksums.kinds .plain)
  let packedSums ←
    if packed = plain then
      pure []
    else
      readSums (checksums.kinds .packed)
  let payload ← framePayload packed
  return ⟨plainSums, packedSums, payload⟩

/- The parts are read one after another. -/
theorem consumes_read
    {recorded : Recorded}
    {checksums : Selection}
    {plain : Nat}
    (hFits : recorded.FitsIn checksums plain) :
    (read checksums plain).Consumes recorded.encode recorded := by
  have hSmall : recorded.payload.length < Bytes.wordCount 4 :=
    lt_wordCount (Nat.le_trans hFits.payload_le hFits.plain_le)
  have hPacked :
      (if recorded.payload.length = plain then
          pure []
        else
          readSums (checksums.kinds .packed) :
            Reading _).Consumes (sumsLayout recorded.packedSums)
        recorded.packedSums := by
    have hKinds := hFits.packed_kinds
    by_cases hStored : recorded.payload.length = plain
    · rw [if_pos hStored] at hKinds ⊢
      rw [List.map_eq_nil_iff.mp hKinds]
      exact consumes_pure []
    · rw [if_neg hStored] at hKinds ⊢
      rw [← hKinds]
      exact consumes_readSums _
  unfold read encode
  apply Consumes.unless (Nat.not_lt.mpr hFits.plain_le)
  apply (consumes_frameLength hSmall).bind
  apply Consumes.unless (Nat.not_lt.mpr hFits.payload_le)
  rw [← hFits.plain_kinds]
  apply (consumes_readSums _).bind
  apply Consumes.choose hPacked
  exact (consumes_exactly _ rfl).bind_nil (consumes_pure _)

/- What holds of single readings holds of the parts' reading. -/
theorem hereditary_read
    {Holds : ∀ {α : Type}, Reading α → Prop}
    (h : Hereditary Holds)
    (checksums : Selection)
    (plain : Nat) :
    Holds (read checksums plain) := by
  unfold read
  apply h.unless rfl
  apply h.of_bind (h.number .frameLength 4)
  intro packed
  apply h.unless rfl
  apply h.of_bind (hereditary_readSums h _)
  intro plainSums
  apply h.choose (h.of_pure []) (hereditary_readSums h _)
  intro packedSums
  apply h.of_bind (h.of_exactly .framePayload packed)
  intro payload
  exact h.of_pure _

end Recorded

/- Readings of the source are one reading. -/
theorem perform_onSource_bind
    {α β γ : Type}
    (reading : Reading α)
    (after : α → Reading β)
    (next : β → Action ContainerReader γ)
    (reader : ContainerReader) :
    (onSource (reading >>= after) >>= next).perform reader =
      match reading.perform reader.source with
      | (.error e, source) =>
          (.error e, { reader with source := source })
      | (.ok a, source) =>
          (onSource (after a) >>= next).perform
            { reader with source := source } := by
  simp only [onSource, Step.perform_bind, Step.perform_within]
  rcases reading.perform reader.source with ⟨e | a, source⟩
  · rfl
  · rfl

/- What follows a reading of the source. -/
theorem perform_onSource_next
    {γ : Type}
    (reading : Reading α)
    (next : α → Action ContainerReader γ)
    (reader : ContainerReader) :
    (onSource reading >>= next).perform reader =
      match reading.perform reader.source with
      | (.error e, source) =>
          (.error e, { reader with source := source })
      | (.ok a, source) =>
          (next a).perform { reader with source := source } := by
  simp only [onSource, Step.perform_bind, Step.perform_within]
  rcases reading.perform reader.source with ⟨e | a, source⟩
  · rfl
  · rfl

/-
  A frame is decoded by reading its parts and settling them.
  Both sides take the same steps, one reading after another.
-/
theorem perform_decodeFrame_eq
    (reader : ContainerReader)
    (plain : Nat) :
    (decodeFrame plain).perform reader =
      (onSource (Recorded.read reader.checksums plain) >>=
        fun recorded => recorded.settle plain).perform reader := by
  unfold decodeFrame Recorded.read
  by_cases hSize : maxBlockSize < plain
  · simp only [hSize, if_true]
    rfl
  simp only [hSize, if_false]
  rw [perform_onSource_bind, perform_onSource_next]
  rcases frameLength.perform reader.source with
    ⟨e | packed, s₁⟩
  · rfl
  dsimp only
  by_cases hOver : plain < packed
  · simp only [hOver, if_true]
    rfl
  simp only [hOver, if_false]
  rw [Step.perform_bind_of_ok (Step.perform_get _),
    perform_onSource_bind, perform_onSource_next]
  dsimp only
  rcases (readSums (reader.checksums.kinds .plain)).perform s₁
    with ⟨e | plainSums, s₂⟩
  · rfl
  dsimp only
  by_cases hStored : packed = plain
  · simp only [hStored, if_true]
    rw [perform_onSource_bind, Step.perform_pure,
      Step.perform_bind_of_ok (Step.perform_pure _ _)]
    dsimp only
    rw [perform_onSource_bind, perform_onSource_next]
    rcases (framePayload plain).perform s₂ with
      ⟨e | payload, s₃⟩
    · rfl
    · rfl
  · simp only [hStored, if_false]
    rw [perform_onSource_bind, perform_onSource_next]
    dsimp only
    rcases (readSums (reader.checksums.kinds .packed)).perform s₂
      with ⟨e | packedSums, s₃⟩
    · rfl
    dsimp only
    rw [perform_onSource_bind, perform_onSource_next]
    rcases (framePayload packed).perform s₃ with
      ⟨e | payload, s₄⟩
    · rfl
    · rfl

/- Parts that are there are read, and then settled. -/
theorem perform_decodeFrame_of_fits
    {recorded : Recorded}
    {plain : Nat}
    {tail : Bytes}
    (reader : ContainerReader)
    (hFits : recorded.FitsIn reader.checksums plain)
    (hFault : reader.source.fault = none)
    (hRest : reader.source.rest = recorded.encode ++ tail) :
    ∃ source,
      (decodeFrame plain).perform reader =
        (recorded.settle plain).perform
          { reader with source := source } ∧
      reader.source.Ahead source recorded.encode.length := by
  rcases perform_onSource (Recorded.consumes_read hFits) reader
    hFault hRest with ⟨source, hRead, hAhead⟩
  refine ⟨source, ?_, hAhead⟩
  rw [perform_decodeFrame_eq]
  exact Step.perform_bind_of_ok hRead

------------------------------------------------------------
-- Whole Frames
------------------------------------------------------------

/- What the frame of a block records. -/
def recordedOf
    (checksums : Selection)
    (content : PackedBlock) : Recorded where
  plainSums := sumsOf content.block (checksums.kinds .plain)
  packedSums :=
    sumsOf content.payload
      (if content.payload.length = content.block.length then
        []
      else
        checksums.kinds .packed)
  payload := content.payload

theorem encode_recordedOf
    (checksums : Selection)
    (content : PackedBlock) :
    (recordedOf checksums content).encode =
      content.afterLength checksums := by
  unfold Recorded.encode recordedOf PackedBlock.afterLength
    PackedBlock.packedSums
  simp only [sumsLayout_sumsOf]
  by_cases hStored :
      content.payload.length = content.block.length
  · simp only [hStored, if_true, List.map_nil, List.flatten_nil]
  · simp only [hStored, if_false]

theorem fitsIn_recordedOf
    {content : PackedBlock}
    (checksums : Selection)
    (hFits : content.Fits) :
    (recordedOf checksums content).FitsIn checksums
      content.block.length := by
  have hPayload := content.length_payload
  exact
    { plain_le := hFits.block_le
      payload_le := by
        change content.payload.length ≤ _
        omega
      plain_kinds := map_fst_sumsOf _ _
      packed_kinds := map_fst_sumsOf _ _ }

/-
  A frame whose payload the codec unpacks to its block makes
  the block ready. The length of the block has been read.
-/
theorem perform_decodeFrame
    (reader : ContainerReader)
    (content : PackedBlock)
    {tail : Bytes}
    (hFits : content.Fits)
    (hRestores :
      content.packed.length < content.block.length →
        reader.codec.Restores content.packed content.block)
    (hFault : reader.source.fault = none)
    (hRest :
      reader.source.rest =
        content.afterLength reader.checksums ++ tail) :
    ∃ source area,
      (decodeFrame content.block.length).perform reader =
        (.ok (),
          { reader with
            source := source
            staging := { area := area, ready := content.block }
            frames := reader.frames + 1 }) ∧
      reader.source.Ahead source
        (content.afterLength reader.checksums).length := by
  rw [← encode_recordedOf] at hRest ⊢
  rcases perform_decodeFrame_of_fits reader
    (fitsIn_recordedOf reader.checksums hFits) hFault hRest with
    ⟨source, hDecode, hAhead⟩
  have hUnpack :=
    perform_unpack { reader with source := source } content
      hRestores
  have hDeliver :=
    perform_deliver
      { reader with
        source := source
        staging := reader.staging.copy content.block }
      reader.staging content.block
      (reader.checksums.kinds .plain) rfl
  refine
    ⟨source, (reader.staging.copy content.block).area, ?_,
      hAhead⟩
  rw [hDecode, Recorded.settle, Step.perform_bind_of_ok (a := ()),
    recordedOf, Step.perform_bind_of_ok hUnpack]
  · exact hDeliver
  · rw [Step.perform_ofExcept, recordedOf, verify_sumsOf]

end ContainerReader

end SplitStream
