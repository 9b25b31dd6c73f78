import SplitStream.Proofs.Codec.Standard
import SplitStream.Proofs.Raw.Reading
import SplitStream.Proofs.Writer.Unrefused

/-
  The room that bundled codecs ask for. One buffer serves all
  blocks of a writer, one limit serves all writers, and it is
  below what a length can tell. So no block is refused, the
  lengths in a frame are those of what it holds, and a reader
  of raw streams comes to every frame that writers write.

  Main declarations:
    * `Frame.Tells`
    * `RawReader.Admits`
    * `Bundled.Carries`
    * `Bundled.carries_of_room`
    * `Course.Persists`
    * `Bundled.Suffices`
    * `Bundled.suffices_of_fits`
-/

------------------------------------------------------------
-- Lengths
------------------------------------------------------------

namespace SplitStream

/- The words at the front of a frame tell the two lengths. -/
def Frame.Tells
    (frame : Bytes)
    (plain payload : Nat) : Prop :=
  Bytes.ofBigEndian (frame.take 4) = plain ∧
  Bytes.ofBigEndian ((frame.drop 4).take 4) = payload

/- A length below the number of words is not cut short. -/
theorem Frame.tells_lengths
    {plain payload : Nat}
    (hPlain : plain < Bytes.wordCount 4)
    (hPayload : payload < Bytes.wordCount 4)
    (rest : Bytes) :
    Tells (length plain ++ (length payload ++ rest)) plain
      payload := by
  have hFirst : (length plain).length = 4 :=
    Bytes.length_bigEndian 4 plain
  have hSecond : (length payload).length = 4 :=
    Bytes.length_bigEndian 4 payload
  constructor
  · rw [List.take_left' hFirst]
    exact Bytes.ofBigEndian_bigEndian_of_lt hPlain
  · rw [List.drop_left' hFirst, List.take_left' hSecond]
    exact Bytes.ofBigEndian_bigEndian_of_lt hPayload

namespace PackedBlock

variable {content : PackedBlock}

theorem tells_rawEncode
    (hFits : content.RawFits) :
    Frame.Tells content.rawEncode content.block.length
      content.packed.length := by
  rw [rawEncode_eq]
  exact
    Frame.tells_lengths (lt_wordCount hFits.block_le)
      hFits.packed_lt content.packed

theorem tells_encode
    (hBlock : content.block.length ≤ maxBlockSize)
    (checksums : Selection) :
    Frame.Tells (content.encode checksums) content.block.length
      content.payload.length := by
  have hPayload : content.payload.length ≤ content.block.length := by
    rw [length_payload]
    exact Nat.min_le_left _ _
  rw [encode_eq]
  exact
    Frame.tells_lengths (lt_wordCount hBlock)
      (lt_wordCount (Nat.le_trans hPayload hBlock)) _

end PackedBlock

------------------------------------------------------------
-- Frames
------------------------------------------------------------

/-
  Before the frame of a block, a reader goes on to decode the
  whole payload of it, and refuses no length.
-/
def RawReader.Admits
    (reader : RawReader)
    (content : PackedBlock) : Prop :=
  ∀ tail,
    reader.source.fault = none →
    reader.source.rest = content.rawEncode ++ tail →
      ∃ source,
        readFrame.perform reader =
          (decode content.packed content.block.length >>= fun _ =>
              pure true).perform
            { reader with
              source := source
              staging := reader.staging.clear } ∧
        reader.source.Ahead source content.rawEncode.length

namespace Bundled

variable
  {kind : Bundled} {codec : Codec} {blockSize : Nat}
  {content : PackedBlock}

/-
  A block of a writer was packed into its buffer. Its frames
  tell its lengths, and readers of raw streams admit it.
-/
structure Carries
    (kind : Bundled)
    (codec : Codec)
    (blockSize : Nat)
    (content : PackedBlock) : Prop where
  block_pos : 1 ≤ content.block.length
  block_le : content.block.length ≤ blockSize
  packed_le :
    content.packed.length ≤ blockSize + codec.overhead blockSize
  raw :
    Frame.Tells content.rawEncode content.block.length
      content.packed.length
  container :
    ∀ checksums,
      Frame.Tells (content.encode checksums) content.block.length
        content.payload.length
  admitted :
    ∀ reader : RawReader,
      kind.Fits reader.codec → reader.Admits content

/- What lies in the buffer of a writer is carried. -/
theorem carries_of_room
    (hFits : kind.Fits codec)
    (hSize : blockSize ≤ maxBlockSize)
    (hPos : 1 ≤ content.block.length)
    (hBlock : content.block.length ≤ blockSize)
    (hPacked :
      content.packed.length ≤ blockSize + codec.overhead blockSize) :
    kind.Carries codec blockSize content := by
  -- The bound is monotone, as the overhead alone is not.
  have hBound : content.packed.length ≤ kind.bound maxBlockSize := by
    rw [hFits.room_eq] at hPacked
    exact Nat.le_trans hPacked (kind.bound_mono hSize)
  have hLengths : content.RawFits :=
    ⟨Nat.le_trans hBlock hSize,
      Nat.lt_of_le_of_lt hBound kind.bound_lt⟩
  refine
    ⟨hPos, hBlock, hPacked, PackedBlock.tells_rawEncode hLengths,
      PackedBlock.tells_encode hLengths.block_le, ?_⟩
  intro reader hReader tail
  apply reader.perform_readFrame_of_fits content hLengths
  rw [RawReader.payloadBound, hReader.room_eq]
  exact hBound

/- A block that a regrouper hands on is carried. -/
theorem carries_of_sound
    {entry : Regrouper.Entry}
    {offer : Offer}
    (hFits : kind.Fits codec)
    (hPos : 1 ≤ blockSize)
    (hSize : blockSize ≤ maxBlockSize)
    (hSound : entry.Sound codec blockSize)
    (hOffer : offer ∈ entry.offers) :
    kind.Carries codec blockSize ⟨offer.block, offer.packed⟩ := by
  have hCuts := hSound.cuts offer hOffer
  have hBlock :
      1 ≤ offer.block.length ∧ offer.block.length ≤ blockSize := by
    -- Writes hand on whole blocks, and flushes shorter ones.
    cases hCall : entry.call with
    | write data =>
      rw [hCall] at hCuts
      have hLength : offer.block.length = blockSize := hCuts
      exact ⟨hLength ▸ hPos, Nat.le_of_eq hLength⟩
    | flush =>
      rw [hCall] at hCuts
      exact hCuts
  exact
    carries_of_room hFits hSize hBlock.1 hBlock.2
      (hSound.packed_le offer hOffer)

/-
  A regrouper fails only where the emission of a block does,
  and all that it hands on is carried.
-/
theorem carries_of_run
    {σ : Type}
    {regrouper : Regrouper}
    (hFits : kind.Fits codec)
    (hSize : blockSize ≤ maxBlockSize)
    (hNew : Regrouper.new codec blockSize = .ok regrouper)
    (emit : Emission σ)
    (world : σ)
    (calls : List Regrouper.Call)
    {entry : Regrouper.Entry}
    (hEntry :
      entry ∈
        ((Regrouper.History.opened regrouper world).run emit
          calls).entries) :
    entry.Answered ∧
      ∀ offer ∈ entry.offers,
        kind.Carries codec blockSize
          ⟨offer.block, offer.packed⟩ := by
  have hUpholds :=
    (Regrouper.upholds_opened emit hNew world).1.run hSize calls
  have hAnswered :=
    (Regrouper.answered_opened hNew world).run
      (hFits.neverFails hSize) emit calls
  have hPos : 1 ≤ blockSize := by
    rw [← (Regrouper.of_new hNew).1]
    exact regrouper.blockSize_pos
  have hSound := hUpholds.sound entry hEntry
  exact
    ⟨hAnswered.entries entry hEntry, fun _ hOffer =>
      carries_of_sound hFits hPos hSize hSound hOffer⟩

end Bundled

------------------------------------------------------------
-- Capacity
------------------------------------------------------------

/-
  Whatever is done with the writer of a course from here on,
  it is refused by no codec.
-/
structure Course.Persists
    {ω : Type}
    {W : Type → Type}
    [FrameWriter W]
    (codec : Codec)
    (blockSize : Nat)
    (course : Course W ω) : Prop where
  run : ∀ calls, (course.run calls).Unrefused codec blockSize
  attach :
    ∀ channel attached,
      course.attach channel = .ok attached →
        attached.Unrefused codec blockSize
  conclude :
    ∀ ending e,
      course.conclude ending = .error e → e.isRefusal = false

theorem Course.Unrefused.persists
    {ω : Type}
    {W : Type → Type}
    [FrameWriter W]
    {codec : Codec}
    {blockSize : Nat}
    {course : Course W ω}
    (h : course.Unrefused codec blockSize)
    (hWriter : FrameWriter.Unrefusing W ω codec blockSize) :
    course.Persists codec blockSize where
  run := h.run hWriter
  attach := fun _ _ hAttach => h.attach hWriter hAttach
  conclude := fun _ _ hConclude => h.conclude hWriter hConclude

namespace Bundled

/-
  The room that a codec asks for is enough for the writers of
  a block size, and for the readers of what they write.
-/
structure Suffices
    (kind : Bundled)
    (codec : Codec)
    (blockSize : Nat) : Prop where
  room_eq : ∀ n, n + codec.overhead n = kind.bound n
  room_le :
    ∀ n,
      n ≤ blockSize →
        n + codec.overhead n ≤
          blockSize + codec.overhead blockSize
  room_le_limit :
    blockSize + codec.overhead blockSize ≤
      maxBlockSize + codec.overhead maxBlockSize
  limit_lt : maxBlockSize + codec.overhead maxBlockSize < 2 ^ 32
  packs : codec.NeverFails blockSize
  hands :
    ∀ {σ : Type} {regrouper : Regrouper} (emit : Emission σ)
      (world : σ) (calls : List Regrouper.Call),
      Regrouper.new codec blockSize = .ok regrouper →
        ∀ entry ∈
            ((Regrouper.History.opened regrouper world).run emit
              calls).entries,
          entry.Answered ∧
          ∀ offer ∈ entry.offers,
            kind.Carries codec blockSize
              ⟨offer.block, offer.packed⟩
  opensRaw :
    ∀ {ω : Type} {channel : Channel ω} {writer : RawWriter ω}
      (world : ω),
      RawWriter.new channel codec blockSize = .ok writer →
        (Course.opened writer world).Unrefused codec blockSize
  opensContainer :
    ∀ {ω : Type} {channel : Channel ω} {options : WriterOptions}
      {clock : UInt32} {writer : ContainerWriter ω}
      {world next : ω},
      options.blockSize = blockSize →
      (ContainerWriter.new channel codec options clock).perform
          world =
        (.ok writer, next) →
        (Course.opened writer next).Unrefused codec blockSize
  persistsRaw :
    ∀ {ω : Type} (course : Course RawWriter ω),
      course.Unrefused codec blockSize →
        course.Persists codec blockSize
  persistsContainer :
    ∀ {ω : Type} (course : Course ContainerWriter ω),
      course.Unrefused codec blockSize →
        course.Persists codec blockSize

/-
  The bounds of a bundled codec are enough for every writer,
  and the codec keeps to them if its engine does.
-/
theorem suffices_of_fits
    (kind : Bundled) :
    (∀ [engines : Engines],
      engines.Roomy →
        ∀ level, kind.Fits (kind.codec level)) ∧
    ∀ codec blockSize,
      kind.Fits codec →
      blockSize ≤ maxBlockSize →
        kind.Suffices codec blockSize := by
  refine ⟨fun hEngines => kind.fits_codec hEngines, ?_⟩
  intro codec blockSize hFits hSize
  have hCodec := hFits.neverFails hSize
  refine
    { room_eq := hFits.room_eq
      room_le := fun n hLe => hFits.room_mono hLe
      room_le_limit := hFits.room_mono hSize
      limit_lt := hFits.limit_lt
      packs := hCodec
      hands := ?_
      opensRaw := ?_
      opensContainer := ?_
      persistsRaw := ?_
      persistsContainer := ?_ }
  · intro σ regrouper emit world calls hNew entry hEntry
    exact carries_of_run hFits hSize hNew emit world calls hEntry
  · intro ω channel writer world hNew
    exact Course.unrefused_opened (RawWriter.stocked_of_new hNew) world
  · rintro ω channel options clock writer world next rfl hNew
    exact
      Course.unrefused_opened (ContainerWriter.stocked_of_new hNew)
        next
  · intro ω course hCourse
    exact hCourse.persists (RawWriter.unrefusing ω hCodec)
  · intro ω course hCourse
    exact hCourse.persists (ContainerWriter.unrefusing ω hCodec)

/-
  The room that Zstandard asks for beyond a block shrinks from
  2048 bytes to the next, by no more than the block grows.
-/
theorem suffices_of_shrinking :
    zstd.Fits (zstd.codec none) ∧
    2049 ≤ maxBlockSize ∧
    (zstd.codec none).overhead 2049 <
      (zstd.codec none).overhead 2048 ∧
    2048 + (zstd.codec none).overhead 2048 ≤
      2049 + (zstd.codec none).overhead 2049 ∧
    zstd.Suffices (zstd.codec none) 2049 := by
  rcases suffices_of_fits .zstd with ⟨hKeeps, hSuffices⟩
  have hSize : 2049 ≤ maxBlockSize := by decide
  have hFits := hKeeps Engines.standard_sound.toRoomy none
  have hWriter := hSuffices _ 2049 hFits hSize
  have hShrinks :
      (zstd.codec none).overhead 2049 <
        (zstd.codec none).overhead 2048 := by
    decide
  exact
    ⟨hFits, hSize, hShrinks, hWriter.room_le 2048 (by decide),
      hWriter⟩

end Bundled

end SplitStream
