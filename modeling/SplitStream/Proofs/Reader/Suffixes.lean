import SplitStream.Proofs.Raw.Reading
import SplitStream.Proofs.Reader.Acceptance
import SplitStream.Proofs.Reader.Splitting

/-
  Splits at all positions. A split stands at the frame that
  covers its position, and its reader delivers the blocks
  from this frame on, as a reader from the start does.

  Main declarations:
    * `Split.Opens`
    * `Split.Suffixes`
    * `Split.suffixes_of_opens`
    * `Split.suffixes_of_complete`
    * `Split.suffixes_of_contents`
-/

------------------------------------------------------------
-- Suffixes
------------------------------------------------------------

namespace SplitStream

namespace Split

section

variable {ρ : Type} [FrameReader ρ]

/-
  A reader of some bytes from their start on delivers blocks
  and ends cleanly.
-/
def Starts
    (starting : Reading ρ)
    (bytes : Bytes)
    (blocks : List Bytes) : Prop :=
  ∀ schedule, ∃ reader next,
    starting.perform (Source.atPosition bytes 0 none schedule) =
      (.ok reader, next) ∧
    FrameReader.Delivers reader blocks none

/-
  A split of some bytes is opened at an offset, wherever the
  source stood. Its reader stands there, delivers blocks and
  ends cleanly.
-/
def Opens
    (opening : Reading (Option (Split ρ)))
    (bytes : Bytes)
    (offset : Nat)
    (blocks : List Bytes) : Prop :=
  ∀ position schedule, ∃ split next,
    opening.perform
        (Source.atPosition bytes position none schedule) =
      (.ok (some split), next) ∧
    split.offset = offset ∧
    (FrameReader.source split.reader).position = offset ∧
    FrameReader.Delivers split.reader blocks none

/-
  An index has an entry for each block of a stream. There is
  no split only if there are no blocks. Any other split is
  opened at the entry that covers its position, and delivers
  the block of this entry and all later ones; so a split at
  the first entry delivers what a reader from the start does.
-/
structure Suffixes
    (opening : Nat → Reading (Option (Split ρ)))
    (starting : Reading ρ)
    (bytes : Bytes)
    (index : FrameIndex)
    (blocks : List Bytes) : Prop where
  count : index.count = blocks.length
  none_iff :
    ∀ start position schedule,
      (∃ next,
        (opening start).perform
            (Source.atPosition bytes position none schedule) =
          (.ok none, next)) ↔
        blocks = []
  suffix :
    blocks ≠ [] →
      ∀ start, ∃ i offset,
        index.position i = some offset ∧
        index.Covers start offset ∧
        Opens (opening start) bytes offset (blocks.drop i)
  first :
    ∀ offset,
      index.position 0 = some offset →
        Opens (opening offset) bytes offset blocks
  whole : Starts starting bytes blocks

/- No two entries of an index have one offset. -/
theorem entry_unique
    {index : FrameIndex}
    {i j offset : Nat}
    (hLeft : index.position i = some offset)
    (hRight : index.position j = some offset) :
    i = j := by
  have hDistinct : index.offsets.Nodup :=
    index.increasing.imp Nat.ne_of_lt
  rcases List.getElem?_eq_some_iff.mp hLeft with ⟨hInside, _⟩
  exact
    (List.getElem?_inj hInside hDistinct).mp
      (hLeft.trans hRight.symm)

variable
  {opening : Nat → Reading (Option (Split ρ))}
  {starting : Reading ρ} {bytes : Bytes} {index : FrameIndex}
  {blocks : List Bytes}

/- A split at an entry delivers the blocks from it on. -/
theorem Suffixes.at_entry
    (h : Suffixes opening starting bytes index blocks)
    {k offset : Nat}
    (hEntry : index.position k = some offset) :
    Opens (opening offset) bytes offset (blocks.drop k) := by
  have hMem : offset ∈ index.offsets :=
    List.mem_of_getElem? hEntry
  have hSome : blocks ≠ [] := by
    intro hNone
    have hCount := h.count
    rw [hNone] at hCount
    rw [List.length_eq_zero_iff.mp hCount] at hMem
    cases hMem
  rcases h.suffix hSome offset with
    ⟨i, other, hOther, hCovers, hOpens⟩
  have hSame :=
    (FrameIndex.covers_self hMem).unique hCovers
  subst hSame
  rwa [entry_unique hOther hEntry] at hOpens

/-
  It is enough to look at splits at the entries themselves,
  since a split takes nothing of its position but the entry
  that is found for it.
-/
theorem suffixes_of_opens
    (hCount : index.count = blocks.length)
    (hSame :
      ∀ start other,
        index.startAtOrBefore start =
            index.startAtOrBefore other →
          opening start = opening other)
    (hNone :
      index.offsets = [] →
        ∀ start position schedule, ∃ next,
          (opening start).perform
              (Source.atPosition bytes position none schedule) =
            (.ok none, next))
    (hOpens :
      ∀ offset ∈ index.offsets, ∃ i,
        index.position i = some offset ∧
        Opens (opening offset) bytes offset (blocks.drop i))
    (hWhole : Starts starting bytes blocks) :
    Suffixes opening starting bytes index blocks := by
  have hEmpty : index.offsets = [] ↔ blocks = [] := by
    rw [← List.length_eq_zero_iff, ← List.length_eq_zero_iff,
      ← hCount]
    rfl
  have hSuffix :
      blocks ≠ [] →
        ∀ start, ∃ i offset,
          index.position i = some offset ∧
          index.Covers start offset ∧
          Opens (opening start) bytes offset (blocks.drop i) := by
    intro hSome start
    rcases hFound : index.startAtOrBefore start with _ | offset
    · have hNothing :=
        FrameIndex.startAtOrBefore_eq_none_iff.mp hFound
      exact absurd (hEmpty.mp hNothing) hSome
    · have hCovers :=
        FrameIndex.startAtOrBefore_eq_some_iff.mp hFound
      have hHere :=
        FrameIndex.startAtOrBefore_of_mem hCovers.mem
      rcases hOpens offset hCovers.mem with ⟨i, hEntry, hOpen⟩
      rw [hSame start offset (hFound.trans hHere.symm)]
      exact ⟨i, offset, hEntry, hCovers, hOpen⟩
  refine
    { count := hCount
      none_iff := ?_
      suffix := hSuffix
      first := ?_
      whole := hWhole }
  · intro start position schedule
    constructor
    · rintro ⟨next, hNothing⟩
      apply Decidable.byContradiction
      intro hSome
      rcases hSuffix hSome start with ⟨_, _, _, _, hOpen⟩
      rcases hOpen position schedule with ⟨split, _, hSplit, _⟩
      rw [hNothing] at hSplit
      cases hSplit
    · intro hNoBlocks
      exact hNone (hEmpty.mpr hNoBlocks) start position schedule
  · intro offset hEntry
    rcases hOpens offset (List.mem_of_getElem? hEntry) with
      ⟨i, hAgain, hOpen⟩
    rw [entry_unique hAgain hEntry] at hOpen
    exact hOpen

end

------------------------------------------------------------
-- Containers
------------------------------------------------------------

section

open ContainerReader Segment

variable
  {codec : Codec} {checksums : Selection}
  {segments : List Segment} {tail : Bytes}

/- Nothing is opened if no entry is found. -/
theorem openContainer_of_none
    {fields : Header}
    {index : FrameIndex}
    {start : Nat}
    {more : Bytes}
    (hRegular : fields.Regular)
    (hNone : index.startAtOrBefore start = none)
    (source : Source)
    (hFault : source.fault = none)
    (hContent : source.content = fields.encode ++ more) :
    ∃ next,
      (openContainer codec index start).perform source =
        (.ok none, next) := by
  rcases source.seek_spec 0 with ⟨_, hNoFault, _⟩
  have hStart : (source.seek 0).rest = fields.encode ++ more := by
    rw [Source.rest_seek, List.drop_zero, hContent]
  rcases Header.consumes_read hRegular (source.seek 0) more
    (hNoFault.trans hFault) hStart with ⟨read, hRead, _⟩
  refine ⟨read, ?_⟩
  unfold openContainer
  rw [Step.perform_bind_of_ok (Reading.perform_seek 0 source),
    Step.perform_bind_of_ok hRead, hNone]
  rfl

/-
  A split at a frame of a container whose headers record the
  same checksums delivers the blocks from this frame on.
-/
theorem opens_at_frame
    {front back : List Segment}
    {segment : Segment}
    (hSplit : segments = front ++ segment :: back)
    (hComplete : Complete segments)
    (hUniform : Uniform checksums segments)
    (hReadable :
      ∀ segment ∈ segments, segment.ReadableBy codec)
    (hFrame : segment.isFrame = true)
    (hTail : tail.take 9 ≠ Container.magic) :
    Opens
      (openContainer codec (.ofSegments segments)
        (layout front).length)
      (layout segments ++ tail) (layout front).length
      (Segment.blocks (segment :: back)) := by
  subst hSplit
  have hFront : Uniform checksums front := by
    intro fields hFields
    exact hUniform fields (List.mem_append_left _ hFields)
  rcases hComplete.at_frame hFront hFrame with
    ⟨fields, rest, rfl, hRegular, hFirst, hFramed⟩
  intro position schedule
  rcases openContainer_before rfl hRegular hReadable hFrame
    (Source.atPosition _ position none schedule) rfl rfl with
    ⟨opened, next, hOpen, hPosition, hBefore⟩
  rw [← hFirst] at hFramed
  exact
    ⟨_, next, hOpen, rfl, hPosition,
      delivers_of_before hFramed hBefore hTail⟩

/-
  Splits of a container work at all positions if its headers
  record the same checksums.
-/
theorem suffixes_of_complete
    (hComplete : Complete segments)
    (hUniform : Uniform checksums segments)
    (hReadable :
      ∀ segment ∈ segments, segment.ReadableBy codec)
    (hTail : tail.take 9 ≠ Container.magic) :
    Suffixes (openContainer codec (.ofSegments segments))
      ((fun reader => reader.follow true) <$>
        ContainerReader.start codec)
      (layout segments ++ tail) (.ofSegments segments)
      (Segment.blocks segments) := by
  apply suffixes_of_opens
  · exact (length_offsets 0 segments).trans
      (length_blocks segments).symm
  · intro start other hSame
    unfold openContainer
    rw [hSame]
  · intro hNothing start position schedule
    rcases hComplete with ⟨hRegular, _⟩
    exact
      openContainer_of_none hRegular
        (FrameIndex.startAtOrBefore_eq_none_iff.mpr hNothing)
        (Source.atPosition _ position none schedule) rfl
        (List.append_assoc _ _ _)
  · intro offset hMem
    rcases mem_offsets_iff.mp hMem with
      ⟨front, segment, back, hSplit, hFrame, rfl⟩
    have hOpens := opens_at_frame hSplit hComplete hUniform
      hReadable hFrame hTail
    refine ⟨Segment.frames front, ?_, ?_⟩
    · rw [hSplit]
      exact getElem?_offsets 0 front back hFrame
    · rw [Nat.zero_add]
      have hBlocks :
          (Segment.blocks segments).drop (Segment.frames front) =
            Segment.blocks (segment :: back) := by
        rw [hSplit, blocks_append, ← length_blocks,
          List.drop_left]
      rw [hBlocks]
      exact hOpens
  · intro schedule
    let source :=
      Source.atPosition (layout segments ++ tail) 0 none schedule
    have hFault : source.fault = none := rfl
    have hRest : source.rest = layout segments ++ tail := rfl
    rcases delivers_of_complete hComplete hReadable hTail hFault
      hRest with
      ⟨reader, next, hStart, _, hDelivers⟩
    refine ⟨reader.follow true, next, ?_, hDelivers⟩
    rw [Step.perform_map, hStart]
    rfl

end

------------------------------------------------------------
-- Raw Streams
------------------------------------------------------------

section

open RawStream

variable {codec : Codec} {contents : List PackedBlock}

/-
  A split at a frame of a raw stream delivers the blocks from
  this frame on.
-/
theorem opens_at_content
    {front back : List PackedBlock}
    {content : PackedBlock}
    (hSplit : contents = front ++ content :: back)
    (hReadable :
      ∀ content ∈ contents, RawReader.Readable codec content) :
    Opens
      (openRaw codec (.ofContents contents)
        (layout front).length)
      (layout contents) (layout front).length
      ((content :: back).map PackedBlock.block) := by
  intro position schedule
  let source :=
    Source.atPosition (layout contents) position none schedule
  let moved := source.seek (layout front).length
  rcases source.seek_spec (layout front).length with
    ⟨_, hFault, hPosition⟩
  have hMem :
      (layout front).length ∈
        (FrameIndex.ofContents contents).offsets :=
    mem_offsets_iff.mpr
      ⟨front, content, back, hSplit, (Nat.zero_add _).symm⟩
  have hRest : moved.rest = layout (content :: back) := by
    have hDrop : moved.rest = (layout contents).drop _ :=
      source.rest_seek (layout front).length
    rw [hDrop, hSplit, layout_append, List.drop_left]
  have hBefore :
      (RawReader.new moved codec).Before (content :: back) :=
    { fault := hFault
      rest := hRest
      readable := by
        intro later hLater
        apply hReadable
        rw [hSplit]
        exact List.mem_append_right _ hLater }
  refine
    ⟨⟨(layout front).length, .new moved codec⟩, moved, ?_, rfl,
      hPosition, RawReader.delivers_of_before hBefore⟩
  unfold openRaw
  rw [FrameIndex.startAtOrBefore_of_mem hMem]
  rfl

/- Splits of a raw stream work at all positions. -/
theorem suffixes_of_contents
    (hReadable :
      ∀ content ∈ contents, RawReader.Readable codec content) :
    Suffixes (openRaw codec (.ofContents contents))
      (do return RawReader.new (← get) codec)
      (layout contents) (.ofContents contents)
      (contents.map PackedBlock.block) := by
  apply suffixes_of_opens
  · simp [FrameIndex.count, FrameIndex.ofContents]
  · intro start other hSame
    unfold openRaw
    rw [hSame]
  · intro hNothing start position schedule
    refine
      ⟨Source.atPosition (layout contents) position none
        schedule, ?_⟩
    unfold openRaw
    rw [FrameIndex.startAtOrBefore_eq_none_iff.mpr hNothing]
    rfl
  · intro offset hMem
    rcases mem_offsets_iff.mp hMem with
      ⟨front, content, back, hSplit, rfl⟩
    have hOpens := opens_at_content hSplit hReadable
    refine ⟨front.length, ?_, ?_⟩
    · rw [hSplit]
      exact getElem?_offsets 0 front content back
    · rw [Nat.zero_add]
      have hBlocks :
          (contents.map PackedBlock.block).drop front.length =
            (content :: back).map PackedBlock.block := by
        rw [hSplit, ← List.map_drop, List.drop_left]
      rw [hBlocks]
      exact hOpens
  · intro schedule
    have hBefore :
        (RawReader.new
          (Source.atPosition (layout contents) 0 none schedule)
          codec).Before contents :=
      ⟨rfl, rfl, hReadable⟩
    exact
      ⟨_, _, rfl, RawReader.delivers_of_before hBefore⟩

end

end Split

end SplitStream
