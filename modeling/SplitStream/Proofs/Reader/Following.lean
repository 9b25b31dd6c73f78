import SplitStream.Proofs.Reader.FrameDecoding

/-
  Reading of whole containers. A reader that follows members
  and stands before the frames of a container hands out their
  blocks one after another, passes over terminators and
  headers, and stops behind the last terminator.

  Main declarations:
    * `ContainerReader.Before`
    * `ContainerReader.Reaches`
    * `ContainerReader.perform_readFrame`
    * `ContainerReader.readToEnd_of_before`
    * `ContainerReader.ReadsTo`
    * `ContainerReader.readsTo_of_complete`
-/

------------------------------------------------------------
-- Readable Segments
------------------------------------------------------------

namespace SplitStream

/-
  A codec can read a header of its method, and a frame whose
  payload it unpacks unless the block is stored.
-/
def Segment.ReadableBy
    (codec : Codec) : Segment → Prop
  | header fields => fields.method = codec.method
  | frame _ content =>
      content.packed.length < content.block.length →
        codec.Restores content.packed content.block
  | terminator => True

namespace ContainerReader

open Reading Segment

/-
  The reader follows members and stands before the bytes of
  segments in a source that does not fail.
-/
structure Before
    (reader : ContainerReader)
    (segments : List Segment)
    (tail : Bytes) : Prop where
  stage : reader.stage = .frames
  follow : reader.followMembers = true
  fault : reader.source.fault = none
  rest : reader.source.rest = layout segments ++ tail
  readable :
    ∀ segment ∈ segments, segment.ReadableBy reader.codec

/-
  What is found before segments: their end, if there are no
  frames among them, or the first frame.
-/
inductive Reaches
    (reader : ContainerReader)
    (segments : List Segment)
    (tail : Bytes) :
    Except Error Bool × ContainerReader → Prop where
  | ended {next : ContainerReader} :
      Segment.blocks segments = [] →
      next.stage = .ended →
      next.frames = reader.frames →
        Reaches reader segments tail (.ok false, next)
  | frame {next : ContainerReader} {rest : List Segment} :
      rest.length < segments.length →
      Segment.blocks segments =
        next.staging.ready :: Segment.blocks rest →
      Framed next.checksums rest →
      next.Before rest tail →
      next.frames = reader.frames + 1 →
        Reaches reader segments tail (.ok true, next)

/- Segments without data are passed over. -/
theorem Reaches.past
    {reader later : ContainerReader}
    {segments rest : List Segment}
    {tail : Bytes}
    {outcome : Except Error Bool × ContainerReader}
    (hReaches : later.Reaches rest tail outcome)
    (hLength : rest.length ≤ segments.length)
    (hBlocks : Segment.blocks segments = Segment.blocks rest)
    (hFrames : later.frames = reader.frames) :
    reader.Reaches segments tail outcome := by
  cases hReaches with
  | ended hNone hStage hSame =>
    exact
      .ended (hBlocks.trans hNone) hStage (hSame.trans hFrames)
  | frame hShort hReady hFramed hBefore hMore =>
    exact
      .frame (Nat.lt_of_lt_of_le hShort hLength)
        (hBlocks.trans hReady) hFramed hBefore
        (by rw [hMore, hFrames])

------------------------------------------------------------
-- Further Members
------------------------------------------------------------

/- The bytes that may be a magic number are read. -/
theorem perform_peek
    (reader : ContainerReader)
    (hFault : reader.source.fault = none) :
    ∃ source,
      (onSource (upTo 9)).perform reader =
        (.ok (reader.source.rest.take 9),
          { reader with source := source }) ∧
      reader.source.Ahead source
        (reader.source.rest.take 9).length := by
  rcases perform_upTo reader.source 9 hFault with
    ⟨source, hUpTo, hAhead⟩
  exact ⟨source, by simp [onSource, hUpTo], hAhead⟩

/- The header of a further member is entered. -/
theorem perform_nextMember_of_header
    (reader : ContainerReader)
    {fields : Header}
    {tail : Bytes}
    (hRegular : fields.Regular)
    (hMethod : fields.method = reader.codec.method)
    (hFault : reader.source.fault = none)
    (hRest : reader.source.rest = fields.encode ++ tail) :
    ∃ source,
      nextMember.perform reader =
        (.ok true,
          { reader with
            source := source
            header := fields
            checksums := .ofFlags fields.flags
            stage := .frames }) ∧
      reader.source.Ahead source fields.encode.length := by
  rcases perform_peek reader hFault with ⟨s₁, hMagic, hAhead₁⟩
  have hFound :
      reader.source.rest.take 9 = Container.magic := by
    rw [hRest]
    exact fields.take_encode tail
  rw [Header.encode_eq, List.append_assoc] at hRest
  rw [hFound] at hMagic hAhead₁
  rcases perform_onSource (Header.consumes_readAfterMagic hRegular)
    { reader with source := s₁ }
    (hAhead₁.fault.trans hFault)
    (hAhead₁.rest_of_eq hRest rfl) with
    ⟨s₂, hHeader, hAhead₂⟩
  refine ⟨s₂, ?_, ?_⟩
  · unfold nextMember
    rw [Step.perform_bind_of_ok hMagic,
      if_neg (not_not_intro rfl)]
    apply (Step.perform_bind_of_ok hHeader).trans
    simp [startMember, checkMethod, hMethod,
      Step.perform_bind, Except.map]
  · rw [Header.encode_eq, List.length_append]
    exact hAhead₁.trans hAhead₂

/- Without a magic number there is no further member. -/
theorem perform_nextMember_of_end
    (reader : ContainerReader)
    (hFault : reader.source.fault = none)
    (hRest : reader.source.rest.take 9 ≠ Container.magic) :
    ∃ source,
      nextMember.perform reader =
        (.ok false, { reader with source := source }) := by
  rcases perform_peek reader hFault with ⟨source, hFound, _⟩
  refine ⟨source, ?_⟩
  unfold nextMember
  rw [Step.perform_bind_of_ok hFound, if_pos hRest]
  rfl

------------------------------------------------------------
-- Single Frames
------------------------------------------------------------

/- Before frames, a round starts with the word of a frame. -/
theorem perform_round
    {reader : ContainerReader}
    (hStage : reader.stage = .frames) :
    round.perform reader =
      (onSource frameStart >>= proceed).perform reader := by
  unfold round
  rw [Step.perform_bind_of_ok (Step.perform_get reader),
    if_neg (by simp [hStage]), if_neg (by simp [hStage])]

/- Behind a terminator, a further member is looked for. -/
theorem perform_proceed
    (reader : ContainerReader)
    (hFollow : reader.followMembers = true) :
    (proceed (some 0)).perform reader =
      ((fun found => if found then .member else .ended) <$>
        nextMember).perform
        { reader with stage := .ended } := by
  rw [proceed, Step.perform_bind_of_ok (Step.perform_modify _ _),
    Step.perform_bind_of_ok (Step.perform_get _),
    if_pos hFollow]
  rfl

/- The loop goes on with the reader that a round leaves. -/
theorem perform_readFrameRounds
    {reader next : ContainerReader}
    {result : Except Error FrameReader.Round}
    (n : Nat) :
    round.perform reader = (result, next) →
      (readFrameRounds (n + 1)).perform reader =
        match result with
        | .error e => (.error e, next)
        | .ok .ended => (.ok false, next)
        | .ok .member => (readFrameRounds n).perform next
        | .ok .frame => (.ok true, next) := by
  intro hRound
  rw [readFrameRounds, Step.perform_bind, hRound]
  rcases result with _ | _ | _ | _ <;> rfl

namespace Before

variable {reader : ContainerReader} {tail : Bytes}

theorem length_le_remaining
    {segments : List Segment}
    (h : reader.Before segments tail) :
    segments.length ≤ reader.source.remaining := by
  have hLayout := length_le_layout segments
  rw [reader.source.remaining_eq, h.rest, List.length_append]
  omega

/- Behind a terminator, a further member is looked for. -/
theorem perform_terminator
    {rest : List Segment}
    (h : reader.Before (.terminator :: rest) tail) :
    ∃ source,
      round.perform reader =
        ((fun found => if found then .member else .ended) <$>
          nextMember).perform
          { reader with source := source, stage := .ended } ∧
      source.fault = none ∧
      source.rest = layout rest ++ tail := by
  have hRest := h.rest
  rw [layout_cons, List.append_assoc] at hRest
  rcases perform_onSource (consumes_frameStart (n := 0) (by decide))
    reader h.fault hRest with ⟨source, hStart, hAhead⟩
  refine
    ⟨source, ?_, hAhead.fault.trans h.fault,
      hAhead.rest_of_eq hRest rfl⟩
  rw [perform_round h.stage, Step.perform_bind_of_ok hStart]
  exact perform_proceed _ h.follow

/- Behind the last terminator, there is no frame. -/
theorem perform_last
    (h : reader.Before [.terminator] tail)
    (hTail : tail.take 9 ≠ Container.magic) :
    ∃ next,
      round.perform reader = (.ok .ended, next) ∧
      next.stage = .ended ∧
      next.frames = reader.frames := by
  rcases h.perform_terminator with ⟨s₁, hRound, hFault, hRest⟩
  rcases perform_nextMember_of_end
    { reader with source := s₁, stage := .ended } hFault
    (by simpa [hRest] using hTail) with ⟨s₂, hEnd⟩
  refine
    ⟨{ reader with source := s₂, stage := .ended }, ?_, rfl, rfl⟩
  rw [hRound, Step.perform_map, hEnd]
  rfl

/- A further member is entered. -/
theorem perform_member
    {fields : Header}
    {rest : List Segment}
    (h :
      reader.Before (.terminator :: .header fields :: rest) tail)
    (hRegular : fields.Regular) :
    ∃ later,
      round.perform reader = (.ok .member, later) ∧
      later.Before rest tail ∧
      later.checksums = .ofFlags fields.flags ∧
      later.frames = reader.frames := by
  rcases h.perform_terminator with ⟨s₁, hRound, hFault, hRest⟩
  rw [layout_cons, List.append_assoc] at hRest
  rcases perform_nextMember_of_header
    { reader with source := s₁, stage := .ended } hRegular
    (h.readable (.header fields) (by simp)) hFault hRest with
    ⟨s₂, hHeader, hAhead⟩
  refine
    ⟨{ reader with
        source := s₂
        header := fields
        checksums := .ofFlags fields.flags
        stage := .frames },
      ?_,
      { stage := rfl
        follow := h.follow
        fault := hAhead.fault.trans hFault
        rest := hAhead.rest_of_eq hRest rfl
        readable := ?_ },
      rfl, rfl⟩
  · rw [hRound, Step.perform_map, hHeader]
    rfl
  · intro segment hSegment
    exact h.readable segment (by simp [hSegment])

/- A frame is decoded. -/
theorem perform_frame
    {content : PackedBlock}
    {rest : List Segment}
    (h :
      reader.Before
        (.frame reader.checksums content :: rest) tail)
    (hFits : content.Fits) :
    ∃ next,
      round.perform reader = (.ok .frame, next) ∧
      next.Before rest tail ∧
      next.checksums = reader.checksums ∧
      next.staging.ready = content.block ∧
      next.frames = reader.frames + 1 := by
  have hRest := h.rest
  have hBlock := hFits.block_le
  rw [layout_cons, List.append_assoc, encode,
    PackedBlock.encode_eq, List.append_assoc] at hRest
  have hSmall : content.block.length < Bytes.wordCount 4 :=
    lt_wordCount hBlock
  rcases perform_onSource (consumes_frameStart hSmall) reader
    h.fault hRest with
    ⟨s₁, hStart, hAhead₁⟩
  have hRest₁ := hAhead₁.rest_of_eq hRest rfl
  rcases perform_decodeFrame { reader with source := s₁ } content
    hFits (h.readable _ List.mem_cons_self)
    (hAhead₁.fault.trans h.fault) hRest₁ with
    ⟨s₂, area, hDecode, hAhead₂⟩
  refine
    ⟨{ reader with
        source := s₂
        staging := { area := area, ready := content.block }
        frames := reader.frames + 1 },
      ?_,
      { stage := h.stage
        follow := h.follow
        fault :=
          (hAhead₂.fault.trans hAhead₁.fault).trans h.fault
        rest := hAhead₂.rest_of_eq hRest₁ rfl
        readable := fun segment hSegment =>
          h.readable segment
            (List.mem_cons_of_mem _ hSegment) },
      rfl, rfl, rfl⟩
  rw [perform_round h.stage, Step.perform_bind_of_ok hStart]
  rcases Nat.exists_eq_succ_of_ne_zero
    (Nat.pos_iff_ne_zero.mp hFits.block_pos) with
    ⟨plain, hPlain⟩
  rw [hPlain] at hDecode ⊢
  exact Step.perform_bind_of_ok hDecode

/-
  The first frame is decoded, or the end is reached. Each
  member that is passed over takes one round.
-/
theorem perform_rounds
    {checksums : Selection}
    {segments : List Segment}
    (hFramed : Framed checksums segments)
    (hBefore : reader.Before segments tail)
    (hChecksums : reader.checksums = checksums)
    (hTail : tail.take 9 ≠ Container.magic)
    (n : Nat)
    (hRounds : segments.length ≤ n) :
    Reaches reader segments tail
      ((readFrameRounds (n + 1)).perform reader) := by
  induction hFramed generalizing reader n with
  | last checksums =>
    rcases hBefore.perform_last hTail with
      ⟨next, hRound, hStage, hFrames⟩
    rw [perform_readFrameRounds _ hRound]
    exact .ended rfl hStage hFrames
  | next hRegular _ ih =>
    rcases hBefore.perform_member hRegular with
      ⟨later, hRound, hLater, hSame, hFrames⟩
    simp only [List.length_cons] at hRounds
    cases n with
    | zero => omega
    | succ n =>
      rw [perform_readFrameRounds _ hRound]
      have hReaches := ih hLater hSame n (by omega)
      exact hReaches.past (by simp; omega) rfl hFrames
  | frame hFits hFramed _ =>
    subst hChecksums
    rcases hBefore.perform_frame hFits with
      ⟨next, hRound, hNext, hSame, hReady, hFrames⟩
    rw [perform_readFrameRounds _ hRound]
    exact
      .frame (by simp) (by rw [hReady]; rfl) (hSame ▸ hFramed)
        hNext hFrames

end Before

/- Reading a frame finds the first one, or the end. -/
theorem perform_readFrame
    {reader : ContainerReader}
    {segments : List Segment}
    {tail : Bytes}
    (hFramed : Framed reader.checksums segments)
    (hBefore : reader.Before segments tail)
    (hTail : tail.take 9 ≠ Container.magic) :
    Reaches reader segments tail (readFrame.perform reader) := by
  let cleared : ContainerReader :=
    { reader with staging := reader.staging.clear }
  have hCleared : cleared.Before segments tail :=
    { hBefore with }
  have hReaches : cleared.Reaches segments tail _ :=
    Before.perform_rounds hFramed hCleared rfl hTail _
      hBefore.length_le_remaining
  exact hReaches.past (Nat.le_refl _) rfl rfl

------------------------------------------------------------
-- Whole Containers
------------------------------------------------------------

/-
  All blocks are collected, without a failure, and the reader
  stands behind the last terminator.
-/
theorem drainRounds_of_before
    {segments : List Segment}
    {tail : Bytes}
    (hTail : tail.take 9 ≠ Container.magic)
    (n : Nat)
    (reader : ContainerReader)
    (got : Tape)
    (hFramed : Framed reader.checksums segments)
    (hBefore : reader.Before segments tail)
    (hRounds : segments.length ≤ n) :
    ∃ bytes next,
      FrameReader.drainRounds (n + 1) reader got =
        ⟨bytes, none, next⟩ ∧
      bytes.toBytes =
        got.toBytes ++ Segment.contents segments ∧
      next.stage = .ended ∧
      next.frames = reader.frames + Segment.frames segments := by
  induction n generalizing reader got segments with
  | zero => cases hFramed <;> simp at hRounds
  | succ n ih =>
    have hReaches := perform_readFrame hFramed hBefore hTail
    change Reaches reader segments tail
      ((FrameReader.readFrame :
        Action ContainerReader Bool).perform reader) at hReaches
    rw [FrameReader.drainRounds]
    generalize (FrameReader.readFrame :
      Action ContainerReader Bool).perform reader = outcome
      at hReaches
    rw [← flatten_blocks, ← length_blocks]
    cases hReaches with
    | @ended next hNone hStage hSame =>
      rw [hNone]
      exact
        ⟨got, next, rfl, (List.append_nil _).symm, hStage, hSame⟩
    | @frame next rest hShort hReady hFramed hRest hMore =>
      let cleared : ContainerReader :=
        { next with staging := next.staging.clear }
      have hCleared : cleared.Before rest tail :=
        { hRest with }
      rcases ih cleared (got.append next.staging.ready) hFramed
        hCleared (by omega) with
        ⟨bytes, last, hDrain, hBytes, hStage, hFrames⟩
      refine ⟨bytes, last, hDrain, ?_, hStage, ?_⟩
      · rw [hBytes, Tape.toBytes_append, List.append_assoc,
          hReady, List.flatten_cons, flatten_blocks]
      · rw [hFrames, hMore, hReady, List.length_cons,
          length_blocks]
        omega

/- Reading to the end adds all blocks to what is ready. -/
theorem readToEnd_of_before
    {reader : ContainerReader}
    {segments : List Segment}
    {tail : Bytes}
    (hFramed : Framed reader.checksums segments)
    (hBefore : reader.Before segments tail)
    (hTail : tail.take 9 ≠ Container.magic) :
    ∃ bytes next,
      FrameReader.readToEnd reader = ⟨bytes, none, next⟩ ∧
      bytes.toBytes =
        reader.staging.ready ++ Segment.contents segments ∧
      next.stage = .ended ∧
      next.frames = reader.frames + Segment.frames segments := by
  let cleared : ContainerReader :=
    { reader with staging := reader.staging.clear }
  have hCleared : cleared.Before segments tail :=
    { hBefore with }
  rcases drainRounds_of_before hTail _ cleared
    (.ofBytes reader.staging.ready) hFramed hCleared
    hBefore.length_le_remaining with
    ⟨bytes, next, hDrain, hBytes, hStage, hFrames⟩
  refine ⟨bytes, next, hDrain, ?_, hStage, hFrames⟩
  rw [hBytes, Tape.toBytes_ofBytes]

/-
  What a reader that follows members makes of some bytes,
  which are handed to it in the pieces of a schedule.
-/
def followAll
    (codec : Codec)
    (schedule : Schedule)
    (bytes : Bytes) :
    Except Error (FrameReader.Collected ContainerReader) :=
  match (start codec).perform
      (Source.atPosition bytes 0 none schedule) with
  | (.error e, _) => .error e
  | (.ok reader, _) =>
      .ok (FrameReader.readToEnd (reader.follow true))

/-
  The bytes are read to a clean end, in whatever pieces they
  come, and some data is found in a number of frames.
-/
def ReadsTo
    (codec : Codec)
    (bytes data : Bytes)
    (frames : Nat) : Prop :=
  ∀ schedule,
    ∃ collected,
      followAll codec schedule bytes = .ok collected ∧
      collected.failure = none ∧
      collected.reader.isFinished = true ∧
      collected.bytes.toBytes = data ∧
      collected.reader.frames = frames

/- The reader that stands before the frames of a member. -/
def standing
    (source : Source)
    (fields : Header)
    (codec : Codec) : ContainerReader where
  source := source
  codec := codec
  header := fields
  checksums := .ofFlags fields.flags
  staging := .empty
  stage := .frames
  followMembers := true
  frames := 0

theorem resume_follow
    {codec : Codec}
    {fields : Header}
    (hMethod : fields.method = codec.method)
    (source : Source) :
    ∃ reader,
      resume source fields codec = .ok reader ∧
      reader.follow true = standing source fields codec := by
  unfold resume checkMethod
  rw [if_pos hMethod]
  exact ⟨_, rfl, rfl⟩

/- A reader is opened before a regular header of its codec. -/
theorem start_of_header
    {codec : Codec}
    {source : Source}
    {fields : Header}
    {tail : Bytes}
    (hRegular : fields.Regular)
    (hMethod : fields.method = codec.method)
    (hFault : source.fault = none)
    (hRest : source.rest = fields.encode ++ tail) :
    ∃ reader next,
      (start codec).perform source = (.ok reader, next) ∧
      source.Ahead next fields.encode.length ∧
      reader.follow true = standing next fields codec := by
  rcases Header.consumes_read hRegular source tail hFault hRest
    with ⟨opened, hHeader, hAhead⟩
  rcases resume_follow hMethod opened with
    ⟨reader, hResume, hReader⟩
  refine ⟨reader, opened, ?_, hAhead, hReader⟩
  unfold start
  rw [Step.perform_bind_of_ok hHeader,
    Step.perform_bind_of_ok (Step.perform_get opened),
    Step.perform_ofExcept, hResume]

/-
  The first member is read up to its end, and further ones
  if they follow. What is behind them is ignored, unless it
  looks like a member.
-/
theorem readsTo_of_complete
    {codec : Codec}
    {segments : List Segment}
    {tail : Bytes}
    (hComplete : Complete segments)
    (hReadable :
      ∀ segment ∈ segments, segment.ReadableBy codec)
    (hTail : tail.take 9 ≠ Container.magic) :
    ReadsTo codec (layout segments ++ tail)
      (Segment.contents segments) (Segment.frames segments) := by
  intro schedule
  cases hComplete with
  | @intro fields rest hRegular hFramed =>
    have hMethod : fields.method = codec.method :=
      hReadable (.header fields) List.mem_cons_self
    let source :=
      Source.atPosition
        (layout (.header fields :: rest) ++ tail) 0 none schedule
    have hSource :
        source.rest = fields.encode ++ (layout rest ++ tail) :=
      List.append_assoc _ _ _
    rcases start_of_header hRegular hMethod rfl hSource with
      ⟨reader, opened, hStart, hAhead, hReader⟩
    have hBefore :
        (standing opened fields codec).Before rest tail :=
      { stage := rfl
        follow := rfl
        fault := hAhead.fault
        rest := hAhead.rest_of_eq hSource rfl
        readable := fun segment hSegment =>
          hReadable segment (List.mem_cons_of_mem _ hSegment) }
    rcases readToEnd_of_before hFramed hBefore hTail with
      ⟨bytes, next, hRead, hBytes, hStage, hFrames⟩
    refine ⟨⟨bytes, none, next⟩, ?_, rfl, ?_, ?_, ?_⟩
    · unfold followAll
      rw [hStart, ← hRead, ← hReader]
    · simp [isFinished, hStage]
    · simpa [standing, Staging.empty, data] using hBytes
    · simpa [standing, isFrame] using hFrames

end ContainerReader

end SplitStream
