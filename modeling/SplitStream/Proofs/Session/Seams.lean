import Mathlib
import SplitStream.Proofs.Container.Parsing
import SplitStream.Proofs.Reader.FrameAcceptance
import SplitStream.Proofs.Session.Joining

/-
  Splits behind the seam of two files. If the files record
  different checksums, there are files whose splits fail: a
  reader with other checksums does not find the frame that
  was laid out.

  Main declarations:
    * `Codec.oneBlock`
    * `PackedBlock.eq_of_afterLength`
    * `FinishedSession.exists_not_splitsWork`
    * `FinishedSession.splitsWork_iff`
-/

------------------------------------------------------------
-- A Codec Of One Block
------------------------------------------------------------

namespace SplitStream

/- A codec that knows one block and refuses all others. -/
def Codec.oneBlock
    (block packed : Bytes) : Codec where
  method := 0x51
  level := 0
  name := "one"
  overhead := fun _ => 0
  compress := fun _ offered _ =>
    if offered = block then
      .success packed
    else
      .refusal [] .failed
  decompress := fun payload _ =>
    if payload = packed then
      .success block
    else
      .refusal [] .failed

namespace Codec

variable {block packed : Bytes}

theorem oneBlock_honest
    (attempt : Nat)
    (offered : Bytes)
    (room : Nat) :
    ((oneBlock block packed).compress attempt offered
      room).Honest := by
  unfold oneBlock
  dsimp only
  split
  · exact Transfer.honest_success packed
  · exact Transfer.honest_refusal _ _

/- Only the block is packed. -/
theorem written_of_oneBlock
    {attempt room length : Nat}
    {offered : Bytes}
    (hReport :
      ((oneBlock block packed).compress attempt offered
        room).report = .ok length) :
    offered = block ∧
      ((oneBlock block packed).compress attempt offered
        room).written = packed := by
  unfold oneBlock at hReport ⊢
  dsimp only at hReport ⊢
  split at hReport
  · rename_i hSame
    exact ⟨hSame, by rw [if_pos hSame]; rfl⟩
  · cases hReport

/- Only the packed block is unpacked. -/
theorem unpacked_of_oneBlock
    {payload : Bytes}
    {room length : Nat}
    (hReport :
      ((oneBlock block packed).decompress payload room).report =
        .ok length) :
    payload = packed ∧
      (oneBlock block packed).decompress payload room =
        .success block := by
  unfold oneBlock at hReport ⊢
  dsimp only at hReport ⊢
  split at hReport
  · rename_i hSame
    exact ⟨hSame, if_pos hSame⟩
  · cases hReport

theorem oneBlock_lossless
    (block packed : Bytes) :
    (oneBlock block packed).Lossless := by
  apply Faithful.lossless
  apply faithful_of_honest
  · exact oneBlock_honest
  · intro attempt offered room length hReport
    rcases written_of_oneBlock hReport with ⟨rfl, hWritten⟩
    rw [hWritten]
    exact if_pos rfl

theorem packed_of_oneBlock
    {content : PackedBlock}
    (hMakes : (oneBlock block packed).Makes content) :
    content = ⟨block, packed⟩ := by
  rcases hMakes with
    ⟨buffer, attempt, room, length, hReport, hRoom, hPacked⟩
  rcases written_of_oneBlock hReport with ⟨hBlock, hWritten⟩
  rw [packedIn_of_honest buffer (oneBlock_honest _ _ _) hReport
    hRoom, hWritten] at hPacked
  cases content
  cases hBlock
  cases hPacked
  rfl

end Codec

------------------------------------------------------------
-- A Frame That Tells Its Checksums
------------------------------------------------------------

/- A block of two bytes, packed into one. -/
def PackedBlock.pair : PackedBlock where
  block := [1, 2]
  packed := [9]

/-
  Neither the layout of the frame for one selection nor that
  for another, with a terminator behind it, starts with the
  other one.
-/
theorem PackedBlock.eq_of_prefix
    {a b : Selection}
    (h :
      pair.afterLength a <+:
          pair.afterLength b ++ Frame.terminator ∨
        pair.afterLength b ++ Frame.terminator <+:
          pair.afterLength a) :
    a = b := by
  have hTold :
      ∀ p q r s p' q' r' s' : Bool,
        (pair.afterLength ⟨p, q, r, s⟩ <+:
              pair.afterLength ⟨p', q', r', s'⟩ ++
                Frame.terminator ∨
            pair.afterLength ⟨p', q', r', s'⟩ ++
                Frame.terminator <+:
              pair.afterLength ⟨p, q, r, s⟩) →
          Selection.mk p q r s = ⟨p', q', r', s'⟩ := by
    decide +kernel
  exact hTold _ _ _ _ _ _ _ _ h

/- The bytes of the frame tell which checksums it records. -/
theorem PackedBlock.eq_of_afterLength
    {a b : Selection}
    {s t : Bytes}
    (h :
      pair.afterLength a ++ s =
        pair.afterLength b ++ (Frame.terminator ++ t)) :
    a = b := by
  rw [← List.append_assoc] at h
  apply eq_of_prefix
  apply List.prefix_or_prefix_of_prefix
  · exact ⟨s, rfl⟩
  · exact ⟨t, h.symm⟩

------------------------------------------------------------
-- Sessions Of One Frame
------------------------------------------------------------

namespace WriterSession

open Segment

/- The block is written, and nothing else. -/
def oneFrame
    (checksums : Selection) : WriterSession where
  codec := .oneBlock PackedBlock.pair.block PackedBlock.pair.packed
  options :=
    { WriterOptions.standard with
      blockSize := 2
      checksums := checksums }
  clock := 0
  data := .willing
  index := .willing
  before := [.write PackedBlock.pair.block]
  indexed := false
  after := []
  ending := .finish

theorem oneFrame_ends
    (checksums : Selection) :
    (oneFrame checksums).play.map
        (fun course =>
          (course.kept, FrameWriter.frames course.writer)) =
      .ok (PackedBlock.pair.block, 1) := by
  rcases checksums with ⟨_ | _, _ | _, _ | _, _ | _⟩ <;> cbv

end WriterSession

namespace FinishedSession

open ContainerReader Segment

/- Behind the last frame of a member stands its terminator. -/
theorem exists_terminator
    {checksums : Selection}
    {segment : Segment}
    {back : List Segment}
    (hFramed : Framed checksums (segment :: back))
    (hFrame : segment.isFrame = true)
    (hNone : Segment.frames back = 0) :
    ∃ content rest,
      segment = .frame checksums content ∧
      back = .terminator :: rest := by
  cases hFramed with
  | last _ => cases hFrame
  | next _ _ => cases hFrame
  | @frame _ content _ hFits hRest =>
    cases hRest with
    | last _ => exact ⟨content, [], rfl, rfl⟩
    | @next _ fields rest _ _ =>
      exact ⟨content, .header fields :: rest, rfl, rfl⟩
    | frame _ _ => simp [isFrame] at hNone

/- The container of such a session has the frame of the block. -/
theorem exists_oneFrame
    (checksums : Selection) :
    ∃ (run : FinishedSession) (front back : List Segment),
      run.session = .oneFrame checksums ∧
      run.session.Outcome run.course
        (front ++ .frame checksums .pair :: .terminator :: back) ∧
      Complete
        (front ++
          .frame checksums .pair :: .terminator :: back) := by
  rcases WriterSession.play_of_map
    (WriterSession.oneFrame_ends checksums) with
    ⟨course, hPlay, hView⟩
  rcases Prod.mk.inj hView with ⟨hKept, hOne⟩
  let run : FinishedSession :=
    { session := .oneFrame checksums
      course := course
      data_reliable := Conduct.reliable_willing
      index_reliable := Conduct.reliable_willing
      played := hPlay }
  rcases run.outcome with ⟨segments, hOutcome, hComplete⟩
  have hFrames : Segment.frames segments = 1 := by
    rw [← hOutcome.frames]
    exact hOne
  rcases exists_frame (n := 0)
    (by rw [hFrames]; exact Nat.one_pos) with
    ⟨front, segment, back, rfl, hFrame, hFirst⟩
  have hUniform : Uniform checksums front := by
    intro fields hFields
    exact
      hOutcome.uniform fields (List.mem_append_left _ hFields)
  rcases hComplete.at_frame hUniform hFrame with
    ⟨_, _, _, _, _, hFramed⟩
  rw [frames_append, hFirst, frames_cons, hFrame] at hFrames
  have hNone : Segment.frames back = 0 := by
    simpa using hFrames
  rcases exists_terminator hFramed hFrame hNone with
    ⟨content, rest, rfl, rfl⟩
  have hMade :
      (Codec.oneBlock _ _).Makes content :=
    hOutcome.made (.frame checksums content) (by simp)
  rw [Codec.packed_of_oneBlock hMade] at hOutcome hComplete
  exact ⟨run, front, rest, rfl, hOutcome, hComplete⟩

/- Where the frame of the block stands, the block is accepted. -/
theorem eq_pair_of_accepted
    {b : Selection}
    {reader next : ContainerReader}
    {content : PackedBlock}
    {tail : Bytes}
    (hCodec :
      reader.codec =
        .oneBlock PackedBlock.pair.block PackedBlock.pair.packed)
    (hRest :
      reader.source.rest =
        PackedBlock.pair.afterLength b ++ tail)
    (hLength : content.block.length = 2)
    (hAccepted : reader.Accepted next content) :
    content = .pair := by
  have hParts := hRest.symm.trans hAccepted.rest
  unfold PackedBlock.afterLength at hParts
  rw [List.append_assoc, List.append_assoc] at hParts
  have hBlock := hAccepted.block_le
  rcases Frame.eq_of_length (by decide)
    (by rw [PackedBlock.length_payload]; omega) hParts with
    ⟨hPayload, _⟩
  rw [PackedBlock.length_payload, PackedBlock.length_payload,
    hLength] at hPayload
  have hOne : 1 = min 2 content.packed.length := hPayload
  have hLess : content.packed.length < content.block.length := by
    omega
  rcases hAccepted.unpacked hLess with ⟨hReport, hWritten⟩
  rw [hCodec] at hReport hWritten
  rcases Codec.unpacked_of_oneBlock hReport with
    ⟨hPacked, hTransfer⟩
  rw [hTransfer, hLength] at hWritten
  have hFilled : content.block = PackedBlock.pair.block :=
    hWritten.trans
      (Scratch.front_overwrite _ PackedBlock.pair.block)
  cases content
  cases hPacked
  cases hFilled
  rfl

/-
  A split that works at the frame of the block has read the
  checksums that the frame records.
-/
theorem eq_of_delivers
    {a b : Selection}
    {fields : Header}
    {index : FrameIndex}
    {bytes more rest data : Bytes}
    {offset n : Nat}
    (hRegular : fields.Regular)
    (hMethod :
      fields.method =
        (Codec.oneBlock PackedBlock.pair.block
          PackedBlock.pair.packed).method)
    (hFlags : Selection.ofFlags fields.flags = a)
    (hMem : offset ∈ index.offsets)
    (hBehind : fields.encode.length ≤ offset)
    (hBytes : bytes = fields.encode ++ more)
    (hRest :
      bytes.drop offset =
        PackedBlock.pair.encode b ++ (Frame.terminator ++ rest))
    (hDelivers :
      Split.Delivers
        (.oneBlock PackedBlock.pair.block PackedBlock.pair.packed)
        bytes index offset data n) :
    a = b := by
  rcases Split.perform_openContainer hRegular hMethod hMem hBehind
    (Source.atPosition bytes 0 none .prompt) rfl hBytes with
    ⟨source, _, hOpen, hFault, hSource, _⟩
  rcases hDelivers 0 .prompt with
    ⟨split, _, collected, hSplit, _, rfl, hClean, _⟩
  rw [hOpen] at hSplit
  have hSame := Option.some.inj (Except.ok.inj (Prod.mk.inj hSplit).1)
  rw [← hSame] at hClean
  rw [PackedBlock.encode_eq, List.append_assoc] at hRest
  rcases accepted_of_clean rfl hFault (by decide)
    (hSource.trans hRest) hClean with
    ⟨opened, next, content, hCodec, hChecksums, hOpened, hLength,
      hAccepted⟩
  have hPair :=
    eq_pair_of_accepted hCodec hOpened hLength hAccepted
  have hParts := hAccepted.rest.symm.trans hOpened
  rw [hPair, hChecksums] at hParts
  rw [← hFlags]
  exact PackedBlock.eq_of_afterLength hParts

/-
  A split that works at the frame of the second file has read
  the checksums of both files.
-/
theorem eq_of_splitsWork
    {a b : Selection}
    {left right : FinishedSession}
    {front back front' back' : List Segment}
    (hLeft : left.session = .oneFrame a)
    (hFirst :
      left.session.Outcome left.course
        (front ++ .frame a .pair :: .terminator :: back))
    (hComplete :
      Complete (front ++ .frame a .pair :: .terminator :: back))
    (hSecond :
      right.session.Outcome right.course
        (front' ++ .frame b .pair :: .terminator :: back'))
    (hMore :
      Complete (front' ++ .frame b .pair :: .terminator :: back'))
    (hWorks : left.SplitsWork right fun _ => True) :
    a = b := by
  have hUniform : Uniform a front := by
    intro fields hFields
    rw [hFirst.uniform fields (List.mem_append_left _ hFields),
      hLeft]
    rfl
  rcases hComplete.at_frame hUniform rfl with
    ⟨fields, rest, rfl, hRegular, hFlags, _⟩
  let before :=
    (.header fields :: rest) ++ .frame a .pair :: .terminator ::
      (back ++ front')
  let known :=
    before ++ .frame b .pair :: .terminator :: back'
  have hKnown : Complete known := by
    have hBoth := hComplete.append hMore
    simpa [known, before] using hBoth
  have hBytes : left.bytes ++ right.bytes = layout known := by
    rw [bytes, bytes, hFirst.received, hSecond.received]
    simp [known, before]
  have hMethod : fields.method = left.session.codec.method :=
    hFirst.made (.header fields) (by simp)
  have hMem :
      (layout before).length ∈
        (FrameIndex.ofSegments known).offsets :=
    FrameIndex.mem_ofSegments rfl
  rcases hWorks.delivers hKnown hBytes rfl rfl trivial with
    ⟨data, n, hDelivers⟩
  rw [hLeft] at hMethod hDelivers
  have hBehind : fields.encode.length ≤ (layout before).length :=
    length_encode_le (.header fields) _
  have hRest :
      (layout known).drop (layout before).length =
        layout (.frame b .pair :: .terminator :: back') := by
    have hParts :
        layout known =
          layout before ++
            layout (.frame b .pair :: .terminator :: back') :=
      layout_append _ _
    rw [hParts, List.drop_left]
  exact
    eq_of_delivers hRegular hMethod hFlags hMem hBehind rfl hRest
      hDelivers

/-
  Whenever two selections differ, there are files that record
  them and whose joined bytes have a split that fails.
-/
theorem exists_not_splitsWork
    {a b : Selection}
    (hDiffer : a ≠ b) :
    ∃ left right : FinishedSession,
      left.Joins right ∧
      left.checksums = a ∧
      right.checksums = b ∧
      ¬ left.SplitsWork right fun _ => True := by
  rcases exists_oneFrame a with
    ⟨left, front, back, hLeft, hFirst, hComplete⟩
  rcases exists_oneFrame b with
    ⟨right, front', back', hRight, hSecond, hMore⟩
  refine ⟨left, right, ?_, ?_, ?_, ?_⟩
  · constructor
    · rw [hLeft, hRight]
      rfl
    · rw [hLeft]
      exact Codec.oneBlock_lossless _ _
  · rw [checksums, hLeft]
    rfl
  · rw [checksums, hRight]
    rfl
  · intro hWorks
    apply hDiffer
    exact
      eq_of_splitsWork hLeft hFirst hComplete hSecond hMore hWorks

/-
  Splits work up to the seam of two files. Behind it, they
  work for all files with two selections exactly if the
  selections are the same.
-/
theorem splitsWork_iff
    (a b : Selection) :
    (∀ left right : FinishedSession,
      left.Joins right →
      left.checksums = a →
      right.checksums = b →
        left.SplitsWork right fun offset =>
          offset < left.bytes.length) ∧
    ((∀ left right : FinishedSession,
      left.Joins right →
      left.checksums = a →
      right.checksums = b →
        left.SplitsWork right fun _ => True) ↔
      a = b) := by
  constructor
  · intro left right hJoins _ _
    apply (splitsWork hJoins).mono
    exact fun _ => Or.inl
  · constructor
    · intro hAll
      apply Decidable.byContradiction
      intro hDiffer
      rcases exists_not_splitsWork hDiffer with
        ⟨left, right, hJoins, hLeft, hRight, hFails⟩
      exact hFails (hAll left right hJoins hLeft hRight)
    · rintro rfl left right hJoins hLeft hRight
      apply (splitsWork hJoins).mono
      intro _ _
      right
      rw [hLeft, hRight]

end FinishedSession

end SplitStream
