import SplitStream.Proofs.Codec.Lossless
import SplitStream.Proofs.Container.HeaderExchange
import SplitStream.Proofs.Reader.FrameAcceptance

/-
  The grammar of containers, written down as it is laid out
  in bytes. A text is a container if it can be cut into
  segments of the grammar of files.

  Main declarations:
    * `Grammar.Sequence`
    * `Grammar.IsHeader`
    * `Grammar.IsFrame`
    * `Grammar.IsMember`
    * `Grammar.IsContainer`
    * `Grammar.isContainer_iff`
-/

------------------------------------------------------------
-- Texts
------------------------------------------------------------

namespace SplitStream

namespace Grammar

open Segment

/- Texts one after another, each with its data. -/
def Sequence
    (IsPart : Bytes → Bytes → Prop)
    (text data : Bytes) : Prop :=
  ∃ parts : List (Bytes × Bytes),
    (∀ part ∈ parts, IsPart part.1 part.2) ∧
    text = parts.flatMap Prod.fst ∧
    data = parts.flatMap Prod.snd

/- A header that is read from the text, which ends with it. -/
def IsHeader
    (text : Bytes)
    (header : Header) : Prop :=
  ∃ next,
    Header.read.perform (.ofBytes text) = (.ok header, next) ∧
    next.rest = []

/- A word of four bytes for each enabled checksum. -/
def sums
    (adler crc : Bool)
    (bs : Bytes) : Bytes :=
  (if adler then
    Bytes.bigEndian 4 (Checksum.adler32.compute bs).toNat
  else
    []) ++
  (if crc then
    Bytes.bigEndian 4 (Checksum.crc32.compute bs).toNat
  else
    [])

/-
  A frame: the lengths of its block and of its payload, the
  checksums of the block, those of the payload if it is
  shorter, and the payload. The payload is the block itself,
  or it is unpacked to the block.
-/
def IsFrame
    (codec : Codec)
    (checksums : Selection)
    (text block : Bytes) : Prop :=
  ∃ payload : Bytes,
    1 ≤ block.length ∧
    block.length ≤ maxBlockSize ∧
    payload.length ≤ block.length ∧
    (payload.length = block.length → payload = block) ∧
    (payload.length < block.length →
      codec.Unpacks payload block) ∧
    text =
      Bytes.bigEndian 4 block.length ++
      Bytes.bigEndian 4 payload.length ++
      sums checksums.plainAdler checksums.plainCrc block ++
      (if payload.length < block.length then
        sums checksums.packedAdler checksums.packedCrc payload
      else
        []) ++
      payload

/- A member: a header of the codec, frames, and four zeros. -/
def IsMember
    (codec : Codec)
    (text data : Bytes) : Prop :=
  ∃ (header : Header) (head frames : Bytes),
    IsHeader head header ∧
    header.method = codec.method ∧
    Sequence (IsFrame codec (.ofFlags header.flags)) frames
      data ∧
    text = head ++ frames ++ [0, 0, 0, 0]

/-
  A container: one member at least, and bytes behind them
  that do not start with the magic number.
-/
def IsContainer
    (codec : Codec)
    (text data : Bytes) : Prop :=
  ∃ (members : List (Bytes × Bytes)) (tail : Bytes),
    members ≠ [] ∧
    (∀ part ∈ members, IsMember codec part.1 part.2) ∧
    ¬ Container.magic <+: tail ∧
    text = members.flatMap Prod.fst ++ tail ∧
    data = members.flatMap Prod.snd

------------------------------------------------------------
-- Sequences
------------------------------------------------------------

section Sequences

variable {IsPart : Bytes → Bytes → Prop}

theorem sequence_nil : Sequence IsPart [] [] :=
  ⟨[], by simp, rfl, rfl⟩

theorem Sequence.cons
    {front text block data : Bytes}
    (hFront : IsPart front block)
    (hRest : Sequence IsPart text data) :
    Sequence IsPart (front ++ text) (block ++ data) := by
  rcases hRest with ⟨parts, hParts, rfl, rfl⟩
  refine ⟨(front, block) :: parts, ?_, rfl, rfl⟩
  intro part hPart
  rcases List.mem_cons.mp hPart with rfl | hPart
  · exact hFront
  · exact hParts part hPart

end Sequences

------------------------------------------------------------
-- Texts And Segments
------------------------------------------------------------

/- The headers of the grammar are the regular ones. -/
theorem isHeader_iff
    {text : Bytes}
    {header : Header} :
    IsHeader text header ↔
      header.Regular ∧ text = header.encode := by
  have hSource : (Source.ofBytes text).rest = text :=
    List.drop_zero
  constructor
  · rintro ⟨next, hRead, hEnd⟩
    rcases Header.yields_read _ next header rfl hRead with
      ⟨_, ⟨rfl, hRegular⟩, hRest, _⟩
    rw [hSource, hEnd, List.append_nil] at hRest
    exact ⟨hRegular, hRest⟩
  · rintro ⟨hRegular, rfl⟩
    rcases Header.consumes_read hRegular (.ofBytes header.encode)
      [] rfl (by rw [hSource, List.append_nil]) with
      ⟨next, hRead, hAhead⟩
    refine ⟨next, hRead, ?_⟩
    rw [hAhead.rest, hSource, List.drop_length]

/- The words of the grammar are those of the enabled kinds. -/
theorem flatten_sums
    (checksums : Selection)
    (scope : Checksum.Scope)
    (bs : Bytes) :
    ((checksums.kinds scope).map (Frame.sum bs)).flatten =
      match scope with
      | .plain =>
          sums checksums.plainAdler checksums.plainCrc bs
      | .packed =>
          sums checksums.packedAdler checksums.packedCrc bs := by
  rcases checksums with ⟨_ | _, _ | _, _ | _, _ | _⟩ <;>
    cases scope <;> simp [Selection.kinds, sums, Frame.sum]

/- The layout of a frame, part by part. -/
theorem encode_eq_parts
    (checksums : Selection)
    (content : PackedBlock) :
    content.encode checksums =
      Bytes.bigEndian 4 content.block.length ++
      Bytes.bigEndian 4 content.payload.length ++
      sums checksums.plainAdler checksums.plainCrc
        content.block ++
      (if content.payload.length < content.block.length then
        sums checksums.packedAdler checksums.packedCrc
          content.payload
      else
        []) ++
      content.payload := by
  have hLength := content.length_payload
  have hPlain := flatten_sums checksums .plain content.block
  have hPacked :=
    flatten_sums checksums .packed content.payload
  rw [PackedBlock.encode_eq, PackedBlock.afterLength,
    PackedBlock.packedSums, hPlain, hPacked]
  by_cases hSame : content.payload.length = content.block.length
  · simp [hSame, Frame.length]
  · have hLess :
        content.payload.length < content.block.length := by
      omega
    simp [hSame, hLess, Frame.length]

/- The frames of the grammar hold blocks that are readable. -/
theorem isFrame_iff
    {codec : Codec}
    (hCodec : codec.Functional)
    {checksums : Selection}
    {text block : Bytes} :
    IsFrame codec checksums text block ↔
      ∃ content : PackedBlock,
        content.Fits ∧
        (Segment.frame checksums content).ReadableBy codec ∧
        text = content.encode checksums ∧
        block = content.block := by
  constructor
  · rintro
      ⟨payload, hSome, hLe, hShort, hStored, hUnpacks, rfl⟩
    have hPayload := ContainerReader.payload_eq hShort hStored
    refine
      ⟨⟨block, payload⟩, ⟨hSome, hLe⟩,
        fun hLess => (hUnpacks hLess).restores, ?_, rfl⟩
    rw [encode_eq_parts, hPayload]
  · rintro ⟨content, hFits, hReadable, rfl, rfl⟩
    have hLength := content.length_payload
    refine
      ⟨content.payload, hFits.block_pos, hFits.block_le,
        by omega, ?_, ?_, encode_eq_parts checksums content⟩
    · intro hSame
      exact PackedBlock.payload_of_stored (by omega)
    · intro hLess
      have hPacked :
          content.packed.length < content.block.length := by
        omega
      rw [PackedBlock.payload_of_packed hPacked]
      exact hCodec.unpacks (hReadable hPacked)

section Containers

variable {codec : Codec}

/- Frames of a member are segments that a terminator follows. -/
theorem framed_of_sequence
    (hCodec : codec.Functional)
    {checksums : Selection}
    {text data : Bytes}
    (h : Sequence (IsFrame codec checksums) text data) :
    ∃ segments,
      Framed checksums (segments ++ [.terminator]) ∧
      (∀ segment ∈ segments, segment.ReadableBy codec) ∧
      text = layout segments ∧
      data = Segment.contents segments := by
  rcases h with ⟨parts, hParts, rfl, rfl⟩
  induction parts with
  | nil =>
    exact ⟨[], .last checksums, by simp, rfl, rfl⟩
  | cons part parts ih =>
    rcases (isFrame_iff hCodec).mp
      (hParts part List.mem_cons_self) with
      ⟨content, hFits, hReadable, hText, hBlock⟩
    rcases ih fun later hLater =>
        hParts later (List.mem_cons_of_mem _ hLater) with
      ⟨segments, hFramed, hRest, hLayout, hContents⟩
    refine
      ⟨.frame checksums content :: segments,
        .frame hFits hFramed, ?_, ?_, ?_⟩
    · intro segment hSegment
      rcases List.mem_cons.mp hSegment with rfl | hSegment
      · exact hReadable
      · exact hRest segment hSegment
    · rw [List.flatMap_cons, hText, hLayout]
      rfl
    · rw [List.flatMap_cons, hBlock, hContents]
      rfl

/- A member of the grammar is a container of its own. -/
theorem complete_of_isMember
    (hCodec : codec.Functional)
    {text data : Bytes}
    (h : IsMember codec text data) :
    ∃ segments,
      Complete segments ∧
      (∀ segment ∈ segments, segment.ReadableBy codec) ∧
      text = layout segments ∧
      data = Segment.contents segments := by
  rcases h with
    ⟨header, head, frames, hHeader, hMethod, hFrames, rfl⟩
  rcases isHeader_iff.mp hHeader with ⟨hRegular, rfl⟩
  rcases framed_of_sequence hCodec hFrames with
    ⟨segments, hFramed, hReadable, rfl, rfl⟩
  refine
    ⟨.header header :: (segments ++ [.terminator]),
      .intro hRegular hFramed, ?_, ?_, ?_⟩
  · intro segment hSegment
    rcases List.mem_cons.mp hSegment with rfl | hSegment
    · exact hMethod
    · rcases List.mem_append.mp hSegment with hFrame | hLast
      · exact hReadable segment hFrame
      · rw [List.mem_singleton.mp hLast]
        trivial
  · simp only [layout_cons, layout_append, layout_nil,
      List.append_nil, List.append_assoc]
    rfl
  · simp [data]

/- Members of the grammar are segments one after another. -/
theorem complete_of_members
    (hCodec : codec.Functional)
    {members : List (Bytes × Bytes)}
    (hSome : members ≠ [])
    (hMembers :
      ∀ part ∈ members, IsMember codec part.1 part.2) :
    ∃ segments,
      Complete segments ∧
      (∀ segment ∈ segments, segment.ReadableBy codec) ∧
      members.flatMap Prod.fst = layout segments ∧
      members.flatMap Prod.snd = Segment.contents segments := by
  induction members with
  | nil => contradiction
  | cons part members ih =>
    rcases complete_of_isMember hCodec
      (hMembers part List.mem_cons_self) with
      ⟨first, hFirst, hReadable, hText, hData⟩
    by_cases hNone : members = []
    · subst hNone
      exact
        ⟨first, hFirst, hReadable, by simpa using hText,
          by simpa using hData⟩
    · rcases ih hNone fun later hLater =>
          hMembers later (List.mem_cons_of_mem _ hLater) with
        ⟨segments, hComplete, hRest, hLayout, hContents⟩
      refine
        ⟨first ++ segments, hFirst.append hComplete, ?_, ?_, ?_⟩
      · intro segment hSegment
        rcases List.mem_append.mp hSegment with hHere | hLater
        · exact hReadable segment hHere
        · exact hRest segment hLater
      · rw [List.flatMap_cons, hText, hLayout, layout_append]
      · rw [List.flatMap_cons, hData, hContents,
          contents_append]

/- A header, frames and a terminator are a member. -/
theorem isMember_of_header
    {fields : Header}
    {frames data : Bytes}
    (hRegular : fields.Regular)
    (hMethod : fields.method = codec.method)
    (hFrames :
      Sequence (IsFrame codec (.ofFlags fields.flags)) frames
        data) :
    IsMember codec (fields.encode ++ frames ++ [0, 0, 0, 0])
      data :=
  ⟨fields, fields.encode, frames,
    isHeader_iff.mpr ⟨hRegular, rfl⟩, hMethod, hFrames, rfl⟩

/-
  Segments that go on from the frames of a member are its
  frames, its terminator, and further members.
-/
theorem members_of_framed
    (hCodec : codec.Functional)
    {checksums : Selection}
    {segments : List Segment}
    (hFramed : Framed checksums segments)
    (hReadable :
      ∀ segment ∈ segments, segment.ReadableBy codec) :
    ∃ frames data members rest,
      Sequence (IsFrame codec checksums) frames data ∧
      Sequence (IsMember codec) members rest ∧
      layout segments = frames ++ [0, 0, 0, 0] ++ members ∧
      Segment.contents segments = data ++ rest := by
  induction hFramed with
  | last checksums =>
    exact ⟨[], [], [], [], sequence_nil, sequence_nil, rfl, rfl⟩
  | @next _ fields rest hRegular _ ih =>
    rcases ih fun later hLater =>
        hReadable later (by simp [hLater]) with
      ⟨frames, data, members, more, hFrames, hMembers, hLayout,
        hContents⟩
    have hMember :=
      isMember_of_header hRegular
        (hReadable (.header fields) (by simp)) hFrames
    refine
      ⟨[], [], _, _, sequence_nil, hMembers.cons hMember, ?_, ?_⟩
    · rw [layout_cons, layout_cons, hLayout]
      simp only [encode, List.append_assoc, List.nil_append]
      rfl
    · rw [contents_cons, contents_cons, hContents]
      rfl
  | @frame _ content rest hFits _ ih =>
    rcases ih fun later hLater =>
        hReadable later (List.mem_cons_of_mem _ hLater) with
      ⟨frames, data, members, more, hFrames, hMembers, hLayout,
        hContents⟩
    have hFrame :=
      (isFrame_iff hCodec).mpr
        ⟨content, hFits, hReadable _ List.mem_cons_self, rfl,
          rfl⟩
    refine
      ⟨_, _, members, more, hFrames.cons hFrame, hMembers, ?_, ?_⟩
    · rw [layout_cons, hLayout]
      simp only [encode, List.append_assoc]
    · rw [contents_cons, hContents, List.append_assoc]
      rfl

/- A tail goes on with no magic number. -/
theorem not_prefix_iff
    (tail : Bytes) :
    ¬ Container.magic <+: tail ↔
      tail.take 9 ≠ Container.magic := by
  rw [List.prefix_iff_eq_take]
  exact not_congr eq_comm

/- The containers of the grammar are those made of segments. -/
theorem isContainer_iff
    (hCodec : codec.Functional)
    {text data : Bytes} :
    IsContainer codec text data ↔
      ∃ segments tail,
        Complete segments ∧
        (∀ segment ∈ segments, segment.ReadableBy codec) ∧
        tail.take 9 ≠ Container.magic ∧
        text = layout segments ++ tail ∧
        data = Segment.contents segments := by
  constructor
  · rintro ⟨members, tail, hSome, hMembers, hTail, rfl, rfl⟩
    rcases complete_of_members hCodec hSome hMembers with
      ⟨segments, hComplete, hReadable, hLayout, hContents⟩
    exact
      ⟨segments, tail, hComplete, hReadable,
        (not_prefix_iff tail).mp hTail, by rw [hLayout],
        hContents⟩
  · rintro
      ⟨segments, tail, hComplete, hReadable, hTail, rfl, rfl⟩
    rcases hComplete with ⟨hRegular, hFramed⟩
    rename_i fields rest
    rcases members_of_framed hCodec hFramed fun later hLater =>
        hReadable later (List.mem_cons_of_mem _ hLater) with
      ⟨frames, data, members, more, hFrames, hMembers, hLayout,
        hContents⟩
    have hMember :=
      isMember_of_header hRegular
        (hReadable (.header fields) List.mem_cons_self) hFrames
    rcases hMembers with ⟨parts, hParts, rfl, rfl⟩
    refine
      ⟨(fields.encode ++ frames ++ [0, 0, 0, 0], data) :: parts,
        tail, by simp, ?_, (not_prefix_iff tail).mpr hTail, ?_, ?_⟩
    · intro part hPart
      rcases List.mem_cons.mp hPart with rfl | hPart
      · exact hMember
      · exact hParts part hPart
    · rw [layout_cons, hLayout]
      simp only [encode, List.flatMap_cons, List.append_assoc]
    · rw [contents_cons, hContents]
      rfl

end Containers

end Grammar

end SplitStream
