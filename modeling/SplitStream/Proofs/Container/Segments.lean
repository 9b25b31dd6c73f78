import SplitStream.Codec.Basic
import SplitStream.Frame
import SplitStream.Bytes.Scratch
import SplitStream.Proofs.Container.HeaderLayout

/-
  Containers as sequences of segments: headers, frames and
  terminators. Writers append segments one after another;
  readers and scans walk over them from the front.

  Main declarations:
    * `PackedBlock`
    * `Codec.Lossless`
    * `Codec.Faithful`
    * `Segment`
    * `Segment.layout`
    * `Segment.offsets`
    * `Segment.blocks`
    * `Segment.Framed`
    * `Segment.Complete`
    * `Segment.Complete.append`
    * `Segment.mem_offsets_iff`
-/

------------------------------------------------------------
-- Lengths
------------------------------------------------------------

namespace SplitStream

/- No length of a block looks like the start of a header. -/
theorem Frame.head_length_ne
    {n : Nat}
    (hSize : n ≤ maxBlockSize) :
    (length n).head? ≠ some 0x89 := by
  intro hHead
  have hDigit : UInt8.ofNat (n / 0x1000000) = 0x89 :=
    Option.some.inj hHead
  have hValue := congrArg UInt8.toNat hDigit
  rw [UInt8.toNat_ofNat'] at hValue
  unfold maxBlockSize at hSize
  simp at hValue
  omega

------------------------------------------------------------
-- Packed Blocks
------------------------------------------------------------

/- A block beside what a codec made of it. -/
structure PackedBlock where
  block : Bytes
  packed : Bytes
  deriving DecidableEq

namespace PackedBlock

/- The layout of the frame of a block. -/
def encode
    (checksums : Selection)
    (content : PackedBlock) : Bytes :=
  (Frame.containerPieces checksums content.block
    content.packed).flatten

/- The sizes that a frame may declare for its block. -/
structure Fits
    (content : PackedBlock) : Prop where
  block_pos : 0 < content.block.length
  block_le : content.block.length ≤ maxBlockSize

/- The bytes of a frame that stand for the block. -/
def payload
    (content : PackedBlock) : Bytes :=
  Frame.payload content.block content.packed

theorem payload_of_stored
    {content : PackedBlock}
    (h : content.block.length ≤ content.packed.length) :
    content.payload = content.block := by
  simp [payload, Frame.payload, Frame.isStored, h]

theorem payload_of_packed
    {content : PackedBlock}
    (h : content.packed.length < content.block.length) :
    content.payload = content.packed := by
  simp [payload, Frame.payload, Frame.isStored,
    Nat.not_le.mpr h]

theorem length_payload
    (content : PackedBlock) :
    content.payload.length =
      min content.block.length content.packed.length := by
  rcases Nat.lt_or_ge content.packed.length
      content.block.length with h | h
  · rw [payload_of_packed h]
    omega
  · rw [payload_of_stored h]
    omega

/- The checksums that a frame records of the packed payload. -/
def packedSums
    (checksums : Selection)
    (content : PackedBlock) : Bytes :=
  if content.payload.length = content.block.length then
    []
  else
    ((checksums.kinds .packed).map
      (Frame.sum content.payload)).flatten

/- What follows the length of the block in its frame. -/
def afterLength
    (checksums : Selection)
    (content : PackedBlock) : Bytes :=
  Frame.length content.payload.length ++
    (((checksums.kinds .plain).map
        (Frame.sum content.block)).flatten ++
      (content.packedSums checksums ++ content.payload))

theorem encode_eq
    (checksums : Selection)
    (content : PackedBlock) :
    content.encode checksums =
      Frame.length content.block.length ++
        content.afterLength checksums := by
  rcases Nat.lt_or_ge content.packed.length
      content.block.length with h | h
  · have hStored : ¬ content.block.length ≤ content.packed.length :=
      Nat.not_le.mpr h
    have hLength : content.packed.length ≠ content.block.length :=
      Nat.ne_of_lt h
    simp [encode, Frame.containerPieces, afterLength, packedSums,
      payload_of_packed h, Frame.payload, Frame.isStored,
      hStored, hLength]
  · simp [encode, Frame.containerPieces, afterLength, packedSums,
      payload_of_stored h, Frame.payload, Frame.isStored, h]

theorem length_sums
    (bs : Bytes)
    (kinds : List Checksum) :
    (kinds.map (Frame.sum bs)).flatten.length =
      4 * kinds.length := by
  induction kinds with
  | nil => rfl
  | cons kind kinds ih =>
    simp only [List.map_cons, List.flatten_cons,
      List.length_append, ih, List.length_cons, Frame.sum,
      Bytes.length_bigEndian]
    omega

/- A frame has two lengths, its checksums, and the payload. -/
theorem length_encode
    (checksums : Selection)
    (content : PackedBlock) :
    (content.encode checksums).length =
      Frame.headerSize +
        4 * Frame.sumCount checksums
          (content.payload.length = content.block.length) +
        content.payload.length := by
  rw [encode_eq, afterLength, packedSums]
  by_cases h : content.payload.length = content.block.length <;>
    simp only [h, List.length_append, length_sums, Frame.length,
      Bytes.length_bigEndian, Frame.headerSize, Frame.sumCount,
      Selection.count, decide_true, decide_false, if_true,
      if_false, List.length_nil, Bool.false_eq_true] <;>
    omega

end PackedBlock

------------------------------------------------------------
-- Codecs Without Loss
------------------------------------------------------------

namespace Codec

/-
  The codec unpacks a payload to a block: it reports the
  length of the block, and has written the block.
-/
structure Restores
    (codec : Codec)
    (packed block : Bytes) : Prop where
  report :
    (codec.decompress packed block.length).report =
      .ok block.length
  written :
    (codec.decompress packed block.length).written.take
      block.length = block

/-
  What the codec makes of a block, when it succeeds, is in a
  buffer that earlier blocks may have been packed into.
-/
def packedIn
    (codec : Codec)
    (buffer : Scratch)
    (attempt : Nat)
    (block : Bytes)
    (room length : Nat) : Bytes :=
  (buffer.overwrite
    ((codec.compress attempt block room).written.take
      room)).front length

/-
  Whenever the codec packs a block into fewer bytes, it
  unpacks these bytes to the block.
-/
def Lossless
    (codec : Codec) : Prop :=
  ∀ buffer attempt block room length,
    (codec.compress attempt block room).report = .ok length →
      length ≤ room →
        length < block.length →
          codec.Restores
            (codec.packedIn buffer attempt block room length)
            block

/-
  Whatever the codec packs a block into, it unpacks it to the
  block, even if nothing was gained.
-/
def Faithful
    (codec : Codec) : Prop :=
  ∀ buffer attempt block room length,
    (codec.compress attempt block room).report = .ok length →
      length ≤ room →
        codec.Restores
          (codec.packedIn buffer attempt block room length)
          block

theorem Faithful.lossless
    {codec : Codec}
    (h : codec.Faithful) :
    codec.Lossless :=
  fun buffer attempt block room length hReport hRoom _ =>
    h buffer attempt block room length hReport hRoom

end Codec

------------------------------------------------------------
-- Segments
------------------------------------------------------------

/- The parts that containers are made of. -/
inductive Segment where
  | header (fields : Header)
  | frame (checksums : Selection) (content : PackedBlock)
  | terminator

namespace Segment

/- The layout of a segment. -/
def encode : Segment → Bytes
  | header fields => fields.encode
  | frame checksums content => content.encode checksums
  | terminator => Frame.terminator

/- The block of a frame; the other segments have no data. -/
def data : Segment → Bytes
  | frame _ content => content.block
  | _ => []

/- The segment is a frame. -/
def isFrame : Segment → Bool
  | frame _ _ => true
  | _ => false

/- The layout of segments one after another. -/
def layout
    (segments : List Segment) : Bytes :=
  segments.flatMap encode

/- The data of all frames. -/
def contents
    (segments : List Segment) : Bytes :=
  segments.flatMap data

/- The number of frames. -/
def frames
    (segments : List Segment) : Nat :=
  segments.countP isFrame

/- The blocks of the frames, one for each. -/
def blocks
    (segments : List Segment) : List Bytes :=
  (segments.filter isFrame).map data

/-
  The positions of the frames among segments that are laid
  out from a position on.
-/
def offsets
    (start : Nat) : List Segment → List Nat
  | [] => []
  | segment :: rest =>
      (if segment.isFrame then [start] else []) ++
        offsets (start + segment.encode.length) rest

@[simp]
theorem layout_nil : layout [] = [] :=
  rfl

@[simp]
theorem layout_cons
    (segment : Segment)
    (rest : List Segment) :
    layout (segment :: rest) = segment.encode ++ layout rest :=
  rfl

@[simp]
theorem layout_append
    (front back : List Segment) :
    layout (front ++ back) = layout front ++ layout back :=
  List.flatMap_append

@[simp]
theorem contents_nil : contents [] = [] :=
  rfl

@[simp]
theorem contents_cons
    (segment : Segment)
    (rest : List Segment) :
    contents (segment :: rest) = segment.data ++ contents rest :=
  rfl

@[simp]
theorem contents_append
    (front back : List Segment) :
    contents (front ++ back) = contents front ++ contents back :=
  List.flatMap_append

@[simp]
theorem frames_nil : frames [] = 0 :=
  rfl

@[simp]
theorem frames_cons
    (segment : Segment)
    (rest : List Segment) :
    frames (segment :: rest) =
      frames rest + (if segment.isFrame then 1 else 0) :=
  List.countP_cons

@[simp]
theorem frames_append
    (front back : List Segment) :
    frames (front ++ back) = frames front + frames back :=
  List.countP_append

@[simp]
theorem blocks_append
    (front back : List Segment) :
    blocks (front ++ back) = blocks front ++ blocks back := by
  simp [blocks]

@[simp]
theorem length_blocks
    (segments : List Segment) :
    (blocks segments).length = frames segments := by
  rw [blocks, List.length_map, frames,
    List.countP_eq_length_filter]

/- There is no data but that of the frames. -/
@[simp]
theorem flatten_blocks
    (segments : List Segment) :
    (blocks segments).flatten = contents segments := by
  induction segments with
  | nil => rfl
  | cons segment segments ih =>
    rw [contents_cons, ← ih]
    cases segment with
    | header fields => rfl
    | frame checksums content => rfl
    | terminator => rfl

/- The data of frames is that of their blocks. -/
@[simp]
theorem contents_map_frame
    (checksums : Selection)
    (contents : List PackedBlock) :
    Segment.contents (contents.map (frame checksums)) =
      contents.flatMap PackedBlock.block := by
  rw [Segment.contents, List.flatMap_map]
  rfl

theorem blocks_map_frame
    (checksums : Selection)
    (contents : List PackedBlock) :
    blocks (contents.map (.frame checksums)) =
      contents.map PackedBlock.block := by
  induction contents with
  | nil => rfl
  | cons content contents ih =>
    rw [List.map_cons, List.map_cons, ← ih]
    rfl

@[simp]
theorem frames_map_frame
    (checksums : Selection)
    (contents : List PackedBlock) :
    frames (contents.map (frame checksums)) =
      contents.length := by
  induction contents with
  | nil => rfl
  | cons content contents ih => simp [ih, isFrame]

theorem offsets_append
    (start : Nat)
    (front back : List Segment) :
    offsets start (front ++ back) =
      offsets start front ++
        offsets (start + (layout front).length) back := by
  induction front generalizing start with
  | nil => rfl
  | cons segment front ih =>
    simp only [List.cons_append, offsets, ih, layout_cons,
      List.length_append, List.append_assoc, Nat.add_assoc]

/- Frames behind a position stand behind each later one. -/
theorem offsets_add
    (start more : Nat)
    (segments : List Segment) :
    offsets (start + more) segments =
      (offsets more segments).map (start + ·) := by
  induction segments generalizing more with
  | nil => rfl
  | cons segment segments ih =>
    rw [offsets, offsets, List.map_append, Nat.add_assoc, ih]
    by_cases hFrame : segment.isFrame = true <;> simp [hFrame]

theorem length_offsets
    (start : Nat)
    (segments : List Segment) :
    (offsets start segments).length = frames segments := by
  induction segments generalizing start with
  | nil => rfl
  | cons segment segments ih =>
    rw [offsets, List.length_append, ih, frames_cons,
      Nat.add_comm]
    by_cases hFrame : segment.isFrame = true
    · simp only [hFrame, if_true, List.length_singleton]
    · simp only [hFrame, Bool.false_eq_true, if_false,
        List.length_nil]

/- A frame stands where the segments before it end. -/
theorem mem_offsets_iff
    {start offset : Nat}
    {segments : List Segment} :
    offset ∈ offsets start segments ↔
      ∃ front segment back,
        segments = front ++ segment :: back ∧
        segment.isFrame = true ∧
        offset = start + (layout front).length := by
  induction segments generalizing start with
  | nil => simp [offsets]
  | cons segment rest ih =>
    rw [offsets, List.mem_append, ih]
    constructor
    · rintro (hHere | ⟨front, frame, back, rfl, hFrame, rfl⟩)
      · by_cases hFrame : segment.isFrame = true
        · have hStart : offset = start := by
            simpa [hFrame] using hHere
          exact ⟨[], segment, rest, rfl, hFrame, by simp [hStart]⟩
        · simp [hFrame] at hHere
      · refine
          ⟨segment :: front, frame, back, rfl, hFrame, ?_⟩
        simp [Nat.add_assoc]
    · rintro ⟨front, frame, back, hSegments, hFrame, rfl⟩
      rcases front with _ | ⟨first, front⟩
      · rcases List.cons.inj hSegments with ⟨rfl, rfl⟩
        left
        simp [hFrame]
      · rcases List.cons.inj hSegments with ⟨rfl, rfl⟩
        right
        exact
          ⟨front, frame, back, rfl, hFrame,
            by simp [Nat.add_assoc]⟩

------------------------------------------------------------
-- Containers
------------------------------------------------------------

/-
  Segments that go on from the frames of a member: its
  frames record the given checksums, its terminator follows,
  and then whole members may follow.
-/
inductive Framed : Selection → List Segment → Prop where
  | last (checksums : Selection) :
      Framed checksums [terminator]
  | next {checksums : Selection} {fields : Header}
      {rest : List Segment} :
      fields.Regular →
        Framed (.ofFlags fields.flags) rest →
          Framed checksums (terminator :: header fields :: rest)
  | frame {checksums : Selection} {content : PackedBlock}
      {rest : List Segment} :
      content.Fits →
        Framed checksums rest →
          Framed checksums (frame checksums content :: rest)

/-
  A container: members one after another, each with a header,
  its frames, and one terminator.
-/
inductive Complete : List Segment → Prop where
  | intro {fields : Header} {rest : List Segment} :
      fields.Regular →
        Framed (.ofFlags fields.flags) rest →
          Complete (header fields :: rest)

/- Whole members may follow the last one. -/
theorem Framed.append
    {checksums : Selection}
    {front back : List Segment}
    (hFront : Framed checksums front)
    (hBack : Complete back) :
    Framed checksums (front ++ back) := by
  induction hFront with
  | last checksums =>
    rcases hBack with ⟨hRegular, hRest⟩
    exact .next hRegular hRest
  | next hRegular _ ih => exact .next hRegular ih
  | frame hFits _ ih => exact .frame hFits ih

theorem Complete.append
    {front back : List Segment}
    (hFront : Complete front)
    (hBack : Complete back) :
    Complete (front ++ back) := by
  rcases hFront with ⟨hRegular, hRest⟩
  exact .intro hRegular (hRest.append hBack)

/- All headers record the given checksums. -/
def Uniform
    (checksums : Selection)
    (segments : List Segment) : Prop :=
  ∀ fields, header fields ∈ segments →
    Selection.ofFlags fields.flags = checksums

/-
  Behind headers that record the checksums of a member, a
  frame stands as if it belonged to this member.
-/
theorem Framed.at_frame
    {checksums : Selection}
    {front back : List Segment}
    {segment : Segment}
    (hFramed : Framed checksums (front ++ segment :: back))
    (hUniform : Uniform checksums front)
    (hFrame : segment.isFrame = true) :
    Framed checksums (segment :: back) := by
  generalize hAll : front ++ segment :: back = segments
    at hFramed
  induction hFramed generalizing front with
  | last checksums =>
    rcases front with _ | ⟨first, front⟩
    · cases hAll
      cases hFrame
    · cases List.append_eq_nil_iff.mp (List.cons.inj hAll).2
      contradiction
  | @next _ fields rest hRegular hRest ih =>
    rcases front with _ | ⟨first, _ | ⟨second, front⟩⟩
    · cases hAll
      cases hFrame
    · cases hAll
      cases hFrame
    · cases hAll
      have hSame := hUniform fields (by simp)
      rw [hSame] at ih
      apply ih _ rfl
      intro later hLater
      exact hUniform later (by simp [hLater])
  | @frame _ _ rest hFits hRest ih =>
    rcases front with _ | ⟨first, front⟩
    · cases hAll
      exact .frame hFits hRest
    · cases hAll
      apply ih _ rfl
      intro later hLater
      exact hUniform later (List.mem_cons_of_mem _ hLater)

/- Before each frame stands the header of the first member. -/
theorem Complete.at_frame
    {checksums : Selection}
    {front back : List Segment}
    {segment : Segment}
    (hComplete : Complete (front ++ segment :: back))
    (hUniform : Uniform checksums front)
    (hFrame : segment.isFrame = true) :
    ∃ fields rest,
      front = header fields :: rest ∧
      fields.Regular ∧
      Selection.ofFlags fields.flags = checksums ∧
      Framed checksums (segment :: back) := by
  generalize hAll : front ++ segment :: back = segments
    at hComplete
  rcases hComplete with ⟨hRegular, hFramed⟩
  rename_i fields rest
  rcases front with _ | ⟨first, front⟩
  · cases hAll
    cases hFrame
  · cases hAll
    have hFirst := hUniform fields List.mem_cons_self
    rw [hFirst] at hFramed
    refine ⟨fields, front, rfl, hRegular, hFirst, ?_⟩
    apply hFramed.at_frame _ hFrame
    intro later hLater
    exact hUniform later (List.mem_cons_of_mem _ hLater)

/- No segment is laid out as no bytes. -/
theorem length_encode_pos
    (segment : Segment) :
    0 < segment.encode.length := by
  rcases segment with fields | ⟨checksums, content⟩ | _
  · simp only [encode, Header.length_encode,
      Header.encodedLength]
    omega
  · simp only [encode, PackedBlock.length_encode,
      Frame.headerSize]
    omega
  · simp [encode, Frame.terminator, Frame.length]

theorem length_le_layout
    (segments : List Segment) :
    segments.length ≤ (layout segments).length := by
  induction segments with
  | nil => simp
  | cons segment segments ih =>
    have := segment.length_encode_pos
    simp only [layout_cons, List.length_cons,
      List.length_append]
    omega

/- The first segment is not longer than all of them. -/
theorem length_encode_le
    (segment : Segment)
    (segments : List Segment) :
    segment.encode.length ≤
      (layout (segment :: segments)).length := by
  rw [layout_cons, List.length_append]
  exact Nat.le_add_right _ _

/- Every frame stands before the end of the segments. -/
theorem lt_of_mem_offsets
    {start offset : Nat}
    {segments : List Segment}
    (h : offset ∈ offsets start segments) :
    offset < start + (layout segments).length := by
  rcases mem_offsets_iff.mp h with
    ⟨front, segment, back, rfl, _, rfl⟩
  have hSome := segment.length_encode_pos
  simp only [layout_append, layout_cons, List.length_append]
  omega

/- Entry number `i` is the position of frame number `i`. -/
theorem getElem?_offsets
    (start : Nat)
    (front : List Segment)
    {segment : Segment}
    (back : List Segment)
    (hFrame : segment.isFrame = true) :
    (offsets start (front ++ segment :: back))[frames front]? =
      some (start + (layout front).length) := by
  have hCount := length_offsets start front
  rw [offsets_append,
    List.getElem?_append_right (Nat.le_of_eq hCount), hCount,
    Nat.sub_self, offsets, if_pos hFrame]
  rfl

/- No entry is the position of another segment. -/
theorem not_mem_offsets
    (start : Nat)
    (front : List Segment)
    {segment : Segment}
    (back : List Segment)
    (hOther : segment.isFrame = false) :
    start + (layout front).length ∉
      offsets start (front ++ segment :: back) := by
  intro hMem
  rw [offsets_append, offsets, hOther] at hMem
  rcases List.mem_append.mp hMem with hFront | hBack
  · exact Nat.lt_irrefl _ (lt_of_mem_offsets hFront)
  · have hSome := segment.length_encode_pos
    rcases mem_offsets_iff.mp hBack with ⟨_, _, _, _, _, hAt⟩
    omega

/- Every frame has a number, by which it is found. -/
theorem exists_frame
    {segments : List Segment}
    {n : Nat}
    (h : n < frames segments) :
    ∃ front segment back,
      segments = front ++ segment :: back ∧
      segment.isFrame = true ∧
      frames front = n := by
  induction segments generalizing n with
  | nil => cases h
  | cons first rest ih =>
    rw [frames_cons] at h
    by_cases hFrame : first.isFrame = true
    · cases n with
      | zero => exact ⟨[], first, rest, rfl, hFrame, rfl⟩
      | succ n =>
        rw [if_pos hFrame] at h
        rcases ih (Nat.lt_of_succ_lt_succ h) with
          ⟨front, segment, back, rfl, hSegment, hCount⟩
        refine
          ⟨first :: front, segment, back, rfl, hSegment, ?_⟩
        rw [frames_cons, hCount, if_pos hFrame]
    · rw [if_neg hFrame] at h
      rcases ih h with
        ⟨front, segment, back, rfl, hSegment, hCount⟩
      refine ⟨first :: front, segment, back, rfl, hSegment, ?_⟩
      rw [frames_cons, hCount, if_neg hFrame]
      rfl

/- The positions of the frames increase. -/
theorem pairwise_offsets
    (start : Nat)
    (segments : List Segment) :
    (offsets start segments).Pairwise (· < ·) := by
  induction segments generalizing start with
  | nil => exact .nil
  | cons segment segments ih =>
    rw [offsets]
    by_cases hFrame : segment.isFrame = true
    · simp only [hFrame, if_true, List.singleton_append,
        List.pairwise_cons]
      refine ⟨?_, ih _⟩
      intro offset hOffset
      rcases mem_offsets_iff.mp hOffset with
        ⟨front, _, _, _, _, rfl⟩
      have := segment.length_encode_pos
      omega
    · simpa [hFrame] using ih _

end Segment

end SplitStream
