import SplitStream.Command.ReadBlock
import SplitStream.Proofs.Codec.Bundled
import SplitStream.Proofs.Codec.Room
import SplitStream.Proofs.Raw.Reading
import SplitStream.Proofs.Reader.Suffixes
import SplitStream.Proofs.Scan.RawRounds
import SplitStream.Proofs.Writer.Completion

/-
  Streams of the bundled codecs, between the writers that
  make them and the readers that use them. A writer that has
  been closed leaves such a stream, whatever the level of its
  codec; and of such a stream the framing, the index, each
  block and all bytes together are found.

  Main declarations:
    * `Streamed`
    * `ContainerWriter.Received.streamed`
    * `RawWriter.Received.streamed`
    * `Streamed.finds`
    * `Streamed.storedAs`
    * `BlockRequest.firstFrame_of_delivers`
-/

------------------------------------------------------------
-- Streams
------------------------------------------------------------

namespace SplitStream

open Segment

/-
  Bytes are a stream of some blocks, of either framing, which
  the codec of a kind can read. An index has the positions of
  its frames.
-/
inductive Streamed
    [Engines]
    (kind : Bundled) :
    Bool → Bytes → List Bytes → FrameIndex → Prop where
  | container
      {checksums : Selection} {segments : List Segment}
      (complete : Complete segments)
      (uniform : Uniform checksums segments)
      (readable :
        ∀ segment ∈ segments,
          segment.ReadableBy (kind.codec none)) :
      Streamed kind false (layout segments)
        (Segment.blocks segments) (.ofSegments segments)
  | raw
      {contents : List PackedBlock}
      (readable :
        ∀ content ∈ contents,
          RawReader.Readable (kind.codec none) content) :
      Streamed kind true (RawStream.layout contents)
        (contents.map PackedBlock.block) (.ofContents contents)

------------------------------------------------------------
-- Written Streams
------------------------------------------------------------

namespace Bundled

variable {kind : Bundled} {level : Option Int}

/- Any level of a codec unpacks what another one has packed. -/
theorem restores_of_makes
    [engines : Engines]
    (hEngines : engines.Sound)
    {content : PackedBlock}
    (hMakes : (kind.codec level).Makes content)
    (hLe : content.block.length ≤ maxBlockSize) :
    (kind.codec none).Restores content.packed content.block := by
  rcases hMakes with
    ⟨buffer, attempt, room, length, hReport, hRoom, hPacked⟩
  have hRestores :=
    kind.faithfulTo hEngines level buffer attempt content.block
      room length hLe hReport hRoom
  rw [← hPacked] at hRestores
  have hSame := kind.decompress_codec level none
  exact
    { report := by
        rw [← hSame]
        exact hRestores.report
      written := by
        rw [← hSame]
        exact hRestores.written }

theorem readable_of_makes
    [engines : Engines]
    (hEngines : engines.Sound)
    {content : PackedBlock}
    {blockSize : Nat}
    (hFits : content.Fits)
    (hSize : blockSize ≤ maxBlockSize)
    (hMakes :
      (kind.codec level).MakesWithin
        (blockSize + (kind.codec level).overhead blockSize)
        content) :
    RawReader.Readable (kind.codec none) content where
  fits :=
    { block_le := hFits.block_le
      packed_lt :=
        Nat.lt_of_le_of_lt hMakes.length_le
          (kind.room_lt hEngines.toMeasured level hSize) }
  bound_le := by
    apply Nat.le_trans hMakes.length_le
    rw [kind.overhead_codec level none]
    exact
      (kind.fits_codec hEngines.toRoomy none).room_mono hSize
  restores :=
    restores_of_makes hEngines hMakes.makes hFits.block_le

end Bundled

/- The frames of a container fit. -/
theorem Segment.Framed.fits
    {checksums other : Selection}
    {segments : List Segment}
    {content : PackedBlock}
    (h : Framed checksums segments)
    (hMem : .frame other content ∈ segments) :
    content.Fits := by
  induction h with
  | last _ => simp at hMem
  | next _ _ ih => exact ih (by simpa using hMem)
  | frame hFits _ ih =>
    rcases List.mem_cons.mp hMem with hSame | hRest
    · cases hSame
      exact hFits
    · exact ih hRest

variable
  {receivers : Receivers FileSystem} {kind : Bundled}
  {level : Option Int} {captured : Bool} {blocks : List Bytes}
  {fs : FileSystem}

/- What has been received from a writer of a bundled codec. -/
def Streamed.Received
    [Engines]
    (receivers : Receivers FileSystem)
    (kind : Bundled)
    (raw captured : Bool)
    (blocks : List Bytes)
    (fs : FileSystem) : Prop :=
  ∃ bytes index,
    Streamed kind raw bytes blocks index ∧
      receivers.Holds fs bytes
        (if captured then index.toBytes else [])

/- A writer of containers leaves a stream. -/
theorem ContainerWriter.Received.streamed
    [engines : Engines]
    (hEngines : engines.Sound)
    {options : WriterOptions}
    {clock : UInt32}
    {segments : List Segment}
    (h :
      ContainerWriter.Received receivers (kind.codec level)
        (headerOf (kind.codec level) options clock) captured
        blocks segments fs) :
    Streamed.Received receivers kind false captured blocks fs := by
  have hUniform : Uniform options.checksums segments := by
    intro fields hFields
    rw [h.headers fields hFields]
    exact (headerOf_spec _ _ _).2.2
  have hReadable :
      ∀ segment ∈ segments,
        segment.ReadableBy (kind.codec none) := by
    intro segment hSegment
    have hMade := h.made segment hSegment
    cases segment with
    | header fields =>
      change fields.method = _
      rw [kind.method_codec none, ← kind.method_codec level]
      exact hMade
    | frame checksums content =>
      intro _
      apply Bundled.restores_of_makes hEngines hMade
      rcases h.complete with ⟨_, hFramed⟩
      exact (hFramed.fits (by simpa using hSegment)).block_le
    | terminator => trivial
  rw [← h.blocks_eq]
  exact
    ⟨_, _, .container h.complete hUniform hReadable, h.holds⟩

/- So does a writer of raw streams. -/
theorem RawWriter.Received.streamed
    [engines : Engines]
    (hEngines : engines.Sound)
    {blockSize : Nat}
    {contents : List PackedBlock}
    (h :
      RawWriter.Received receivers (kind.codec level) blockSize
        captured blocks contents fs)
    (hSize : blockSize ≤ maxBlockSize) :
    Streamed.Received receivers kind true captured blocks fs := by
  have hReadable :
      ∀ content ∈ contents,
        RawReader.Readable (kind.codec none) content := by
    intro content hContent
    rcases h.made content hContent with ⟨hFits, hMakes⟩
    exact
      Bundled.readable_of_makes hEngines hFits hSize hMakes
  rw [← h.blocks_eq]
  exact ⟨_, _, .raw hReadable, h.holds⟩

------------------------------------------------------------
-- Indexes
------------------------------------------------------------

namespace Streamed

variable
  {raw : Bool} {bytes : Bytes} {index : FrameIndex}

/- A scan finds the index of a stream. -/
theorem finds
    [Engines]
    (h : Streamed kind raw bytes blocks index) :
    Scan.Finds Scan.stream bytes index := by
  cases h with
  | container hComplete _ _ =>
    exact (Scan.finds_of_complete hComplete).2
  | raw hReadable =>
    exact
      (Scan.finds_of_contents fun content hContent =>
        (hReadable content hContent).fits).2.2

/- The index has an entry for each block. -/
theorem count_eq
    [Engines]
    (h : Streamed kind raw bytes blocks index) :
    index.count = blocks.length := by
  cases h with
  | container _ _ _ =>
    exact
      (length_offsets 0 _).trans (length_blocks _).symm
  | raw _ => simp [FrameIndex.count, FrameIndex.ofContents]

theorem lt_of_mem
    [Engines]
    (h : Streamed kind raw bytes blocks index)
    {offset : Nat}
    (hOffset : offset ∈ index.offsets) :
    offset < bytes.length := by
  cases h with
  | container _ _ _ =>
    have hLess := lt_of_mem_offsets hOffset
    rwa [Nat.zero_add] at hLess
  | raw _ =>
    have hLess := RawStream.lt_of_mem_offsets hOffset
    rwa [Nat.zero_add] at hLess

/- The index of a stream is read back from its bytes. -/
theorem storedAs
    [Engines]
    (h : Streamed kind raw bytes blocks index) :
    index.StoredAs index.toBytes bytes.length :=
  FrameIndex.storedAs_of_lt rfl fun _ hOffset =>
    h.lt_of_mem hOffset

------------------------------------------------------------
-- Framing
------------------------------------------------------------

/- A container is recognised, and its header names the codec. -/
theorem perform_header
    [Engines]
    (h : Streamed kind false bytes blocks index) :
    ∃ fields seen read,
      Scan.detect.perform (.ofBytes bytes) =
        (.ok .container, seen) ∧
      Header.read.perform (.ofBytes bytes) =
        (.ok fields, read) ∧
      Bundled.codecOfMethod fields.method =
        .ok (kind.codec none) := by
  cases h with
  | container hComplete _ hReadable =>
    cases hComplete with
    | @intro fields rest hRegular _ =>
      let source := Source.ofBytes (layout (.header fields :: rest))
      have hRest : source.rest = fields.encode ++ layout rest :=
        rfl
      have hMagic : source.rest.take 9 = Container.magic := by
        rw [hRest]
        exact Header.take_encode _ _
      rcases Scan.perform_detect source rfl with
        ⟨seen, hDetect, _⟩
      rw [if_pos hMagic] at hDetect
      rcases Header.consumes_read hRegular source (layout rest)
        rfl hRest with ⟨read, hRead, _⟩
      have hMethod : fields.method = (kind.codec none).method :=
        hReadable (.header fields) List.mem_cons_self
      rw [kind.method_codec] at hMethod
      refine ⟨fields, seen, read, hDetect, hRead, ?_⟩
      rw [hMethod]
      exact kind.codecOfMethod_method

theorem perform_detect
    [Engines]
    (h : Streamed kind true bytes blocks index) :
    ∃ seen,
      Scan.detect.perform (.ofBytes bytes) = (.ok .raw, seen) := by
  cases h with
  | raw hReadable =>
    exact
      (Scan.finds_of_contents fun content hContent =>
        (hReadable content hContent).fits).1 .prompt

------------------------------------------------------------
-- Readers
------------------------------------------------------------

/- All bytes of a container are collected. -/
theorem collect_container
    [Engines]
    (h : Streamed kind false bytes blocks index) :
    ∃ reader next,
      (ContainerReader.start (kind.codec none)).perform
          (.ofBytes bytes) =
        (.ok reader, next) ∧
      let collected :=
        FrameReader.readToEnd (reader.follow true)
      collected.failure = none ∧
        collected.bytes.toBytes = blocks.flatten := by
  cases h with
  | @container _ segments hComplete _ hReadable =>
    have hReads :=
      ContainerReader.readsTo_of_complete hComplete hReadable
        Header.take_nil_ne_magic
    rw [List.append_nil] at hReads
    rcases hReads .prompt with
      ⟨collected, hFollow, hNone, _, hBytes, _⟩
    rw [← flatten_blocks] at hBytes
    unfold ContainerReader.followAll at hFollow
    split at hFollow
    · cases hFollow
    · rename_i reader next hStart
      cases hFollow
      exact ⟨reader, next, hStart, hNone, hBytes⟩

/- So are those of a raw stream. -/
theorem collect_raw
    [Engines]
    (h : Streamed kind true bytes blocks index) :
    let collected :=
      FrameReader.readToEnd
        (RawReader.new (.ofBytes bytes) (kind.codec none))
    collected.failure = none ∧
      collected.bytes.toBytes = blocks.flatten := by
  cases h with
  | @raw contents hReadable =>
    rcases RawReader.readsTo_of_contents hReadable .prompt with
      ⟨hNone, hBytes, _⟩
    rw [RawStream.data, List.flatMap_def] at hBytes
    exact ⟨hNone, hBytes⟩

/- A split at an entry of the index begins with its block. -/
theorem opens_container
    [Engines]
    (h : Streamed kind false bytes blocks index)
    {k offset : Nat}
    (hEntry : index.position k = some offset) :
    Split.Opens
      (Split.openContainer (kind.codec none) index offset)
      bytes offset (blocks.drop k) := by
  cases h with
  | container hComplete hUniform hReadable =>
    have hSuffixes :=
      Split.suffixes_of_complete hComplete hUniform hReadable
        Header.take_nil_ne_magic
    rw [List.append_nil] at hSuffixes
    exact hSuffixes.at_entry hEntry

theorem opens_raw
    [Engines]
    (h : Streamed kind true bytes blocks index)
    {k offset : Nat}
    (hEntry : index.position k = some offset) :
    Split.Opens (Split.openRaw (kind.codec none) index offset)
      bytes offset (blocks.drop k) := by
  cases h with
  | raw hReadable =>
    exact (Split.suffixes_of_contents hReadable).at_entry hEntry

end Streamed

/- The first frame of a split has the first block. -/
theorem BlockRequest.firstFrame_of_delivers
    {ρ : Type}
    [FrameReader ρ]
    {split : Split ρ}
    {block : Bytes}
    {rest : List Bytes}
    (h :
      FrameReader.Delivers split.reader (block :: rest) none) :
    firstFrame split = .ok block := by
  generalize hBlocks : block :: rest = blocks at h
  cases h with
  | ended _ => cases hBlocks
  | @frame _ next later _ hRead _ =>
    cases hBlocks
    have hTake :
        ((FrameReader.takeAll : Action ρ Bytes).perform next).1 =
          .ok (FrameReader.staging next).ready :=
      congrArg Except.ok List.take_length
    rw [← hTake]
    exact congrArg Prod.fst (Step.perform_bind_of_ok hRead)

end SplitStream
