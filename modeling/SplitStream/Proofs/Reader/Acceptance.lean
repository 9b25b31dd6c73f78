import SplitStream.Proofs.Container.Grammar
import SplitStream.Proofs.Reader.Walking

/-
  Acceptance of whole containers. A reader that follows
  members reads some bytes to a clean end exactly if they are
  a container of the grammar, and it delivers the data of its
  frames.

  Main declarations:
    * `ContainerReader.header_of_start`
    * `ContainerReader.Accounts`
    * `ContainerReader.accounts_of_walk`
    * `ContainerReader.delivers_of_before`
    * `ContainerReader.delivers_iff_isContainer`
-/

------------------------------------------------------------
-- Opening
------------------------------------------------------------

namespace SplitStream

namespace ContainerReader

open FrameReader Segment

/- A reader is opened behind a regular header of its codec. -/
theorem header_of_start
    {codec : Codec}
    {source next : Source}
    {reader : ContainerReader}
    (hFault : source.fault = none)
    (hStart : (start codec).perform source = (.ok reader, next)) :
    ∃ fields : Header,
      fields.Regular ∧
      fields.method = codec.method ∧
      source.rest = fields.encode ++ next.rest ∧
      source.Ahead next fields.encode.length ∧
      reader.follow true = standing next fields codec := by
  rcases Step.ok_of_perform_bind hStart with
    ⟨fields, opened, hRead, hResume⟩
  rcases Header.yields_read source opened fields hFault hRead with
    ⟨_, ⟨rfl, hRegular⟩, hRest, hAhead⟩
  rw [Step.perform_bind_of_ok (Step.perform_get opened),
    Step.perform_ofExcept] at hResume
  rcases Prod.mk.inj hResume with ⟨hReader, rfl⟩
  by_cases hMethod : fields.method = codec.method
  · rcases resume_follow hMethod opened with
      ⟨again, hAgain, hStanding⟩
    rw [hAgain] at hReader
    cases hReader
    exact ⟨fields, hRegular, hMethod, hRest, hAhead, hStanding⟩
  · simp only [resume, checkMethod, if_neg hMethod] at hReader
    cases hReader

theorem ready_standing
    {source : Source}
    (fields : Header)
    (codec : Codec)
    (hFault : source.fault = none) :
    (standing source fields codec).Ready :=
  ⟨rfl, rfl, hFault⟩

------------------------------------------------------------
-- Walks And Segments
------------------------------------------------------------

/-
  Segments account for what a reader finds: they are laid out
  before a tail, and the frames that are found are theirs.
-/
structure Accounts
    (reader : ContainerReader)
    (found : List (Nat × Bytes))
    (segments : List Segment)
    (tail : Bytes) : Prop where
  framed : Framed reader.checksums segments
  stop : tail.take 9 ≠ Container.magic
  rest : reader.source.rest = layout segments ++ tail
  positions :
    found.map Prod.fst =
      offsets reader.source.position segments
  blocks :
    (found.map Prod.snd).flatten = Segment.contents segments
  readable :
    reader.codec.Functional →
      ∀ segment ∈ segments, segment.ReadableBy reader.codec

namespace Accounts

variable
  {reader next : ContainerReader}
  {found : List (Nat × Bytes)}
  {segments : List Segment}
  {tail : Bytes}

/- The last terminator accounts for an end. -/
theorem last
    (hMoves : reader.MovesOver next .ended) :
    ∃ tail, reader.Accounts [] [.terminator] tail := by
  cases hMoves with
  | @last tail hRest hTail =>
    refine ⟨tail, .last _, hTail, hRest, rfl, rfl, ?_⟩
    intro _ segment hSegment
    rw [List.mem_singleton.mp hSegment]
    trivial

/- A terminator and a header stand before what follows. -/
theorem member
    (h : next.Accounts found segments tail)
    (hMoves : reader.MovesOver next .member) :
    ∃ fields,
      reader.Accounts found
        (.terminator :: .header fields :: segments) tail := by
  cases hMoves with
  | @member fields hRegular hMethod hRest hAhead hNext =>
    have hChecksums : next.checksums = .ofFlags fields.flags := by
      rw [hNext]
    have hCodec : next.codec = reader.codec := by
      rw [hNext]
    have hReadable := h.readable
    rw [hCodec] at hReadable
    refine
      ⟨fields,
        { framed := .next hRegular (hChecksums ▸ h.framed)
          stop := h.stop
          rest := ?_
          positions := ?_
          blocks := h.blocks
          readable := ?_ }⟩
    · rw [hRest, h.rest]
      simp only [layout_cons, layout_nil, List.append_nil,
        List.append_assoc]
    · rw [h.positions, hAhead.position]
      simp [offsets, isFrame, Nat.add_assoc]
    · intro hFunctional segment hSegment
      rcases List.mem_cons.mp hSegment with rfl | hSegment
      · trivial
      · rcases List.mem_cons.mp hSegment with rfl | hSegment
        · exact hMethod
        · exact hReadable hFunctional segment hSegment

/- A frame stands before what follows. -/
theorem frame
    (h : Accounts (cleared next) found segments tail)
    (hMoves : reader.MovesOver next .frame) :
    ∃ content,
      reader.Accounts
        ((reader.source.position, next.staging.ready) :: found)
        (.frame reader.checksums content :: segments) tail := by
  have hLayout : next.source.rest = layout segments ++ tail :=
    h.rest
  have hPositions :
      found.map Prod.fst =
        offsets next.source.position segments :=
    h.positions
  have hFramed : Framed next.checksums segments := h.framed
  have hReadable :
      next.codec.Functional →
        ∀ segment ∈ segments, segment.ReadableBy next.codec :=
    h.readable
  cases hMoves with
  | @frame content hFits hRest hAhead hNext hBlock hFills =>
    have hChecksums : next.checksums = reader.checksums := by
      rw [hNext]
    have hCodec : next.codec = reader.codec := by
      rw [hNext]
    rw [hCodec] at hReadable
    refine
      ⟨content,
        { framed := .frame hFits (hChecksums ▸ hFramed)
          stop := h.stop
          rest := ?_
          positions := ?_
          blocks := ?_
          readable := ?_ }⟩
    · rw [hRest, hLayout]
      simp only [layout_cons, layout_nil, List.append_nil,
        List.append_assoc]
    · rw [List.map_cons, hPositions, hAhead.position]
      simp [offsets, isFrame]
    · rw [List.map_cons, List.flatten_cons, h.blocks,
        contents_cons, hBlock]
      rfl
    · intro hFunctional segment hSegment
      rcases List.mem_cons.mp hSegment with rfl | hSegment
      · intro hLess
        exact (hFills hLess).restores hFunctional
      · exact hReadable hFunctional segment hSegment

end Accounts

/-
  A walk that ends cleanly has moved over segments that go on
  from the frames of a member. The induction is on the walk;
  each round adds what it has moved over.
-/
theorem accounts_of_walk
    {reader : ContainerReader}
    {found : List (Nat × Bytes)}
    {failure : Option Error}
    (hWalks : Walks round reader found failure)
    (hClean : failure = none)
    (hReady : reader.Ready) :
    ∃ segments tail, reader.Accounts found segments tail := by
  induction hWalks with
  | failed _ => cases hClean
  | ended hRound =>
    rcases Accounts.last (movesOver_of_round hReady hRound) with
      ⟨tail, hAccounts⟩
    exact ⟨_, tail, hAccounts⟩
  | member hRound _ ih =>
    have hMoves := movesOver_of_round hReady hRound
    have hNext := (hMoves.ready hReady (by simp)).1
    rcases ih hClean hNext with ⟨segments, tail, hAccounts⟩
    rcases hAccounts.member hMoves with ⟨fields, hMember⟩
    exact ⟨_, tail, hMember⟩
  | frame hRound _ ih =>
    have hMoves := movesOver_of_round hReady hRound
    have hNext := (hMoves.ready hReady (by simp)).1
    rcases ih hClean ⟨hNext.stage, hNext.follow, hNext.fault⟩
      with ⟨segments, tail, hAccounts⟩
    rcases hAccounts.frame hMoves with ⟨content, hFrame⟩
    exact ⟨_, tail, hFrame⟩

/-
  Before readable segments, a reader delivers the blocks of
  their frames and ends cleanly. Each frame that it reads
  leaves it before fewer segments.
-/
theorem delivers_of_before
    {reader : ContainerReader}
    {segments : List Segment}
    {tail : Bytes}
    (hFramed : Framed reader.checksums segments)
    (hBefore : reader.Before segments tail)
    (hTail : tail.take 9 ≠ Container.magic) :
    Delivers reader (Segment.blocks segments) none := by
  generalize hSize : segments.length = n
  induction n using Nat.strongRecOn generalizing reader segments
    with
  | ind n ih =>
    have hReaches := perform_readFrame hFramed hBefore hTail
    generalize hRead : readFrame.perform reader = outcome
      at hReaches
    cases hReaches with
    | ended hNone _ _ =>
      rw [hNone]
      exact .ended hRead
    | @frame next rest hShort hReady hFramed hRest _ =>
      rw [hReady]
      exact
        .frame hRead (ih _ (hSize ▸ hShort) hFramed hRest rfl)

------------------------------------------------------------
-- Whole Containers
------------------------------------------------------------

/- A reader of readable members delivers their data. -/
theorem delivers_of_complete
    {codec : Codec}
    {source : Source}
    {segments : List Segment}
    {tail : Bytes}
    (hComplete : Complete segments)
    (hReadable :
      ∀ segment ∈ segments, segment.ReadableBy codec)
    (hTail : tail.take 9 ≠ Container.magic)
    (hFault : source.fault = none)
    (hRest : source.rest = layout segments ++ tail) :
    ∃ reader next,
      (start codec).perform source = (.ok reader, next) ∧
      (reader.follow true).Ready ∧
      Delivers (reader.follow true) (Segment.blocks segments)
        none := by
  rcases hComplete with ⟨hRegular, hFramed⟩
  rename_i fields rest
  rw [layout_cons, List.append_assoc] at hRest
  rcases start_of_header hRegular
    (hReadable (.header fields) List.mem_cons_self) hFault
    hRest with ⟨reader, next, hStart, hAhead, hReader⟩
  have hBefore :
      (standing next fields codec).Before rest tail :=
    { stage := rfl
      follow := rfl
      fault := hAhead.fault.trans hFault
      rest := hAhead.rest_of_eq hRest rfl
      readable := fun segment hSegment =>
        hReadable segment (List.mem_cons_of_mem _ hSegment) }
  have hReady :=
    ready_standing fields codec (hAhead.fault.trans hFault)
  have hDelivers := delivers_of_before hFramed hBefore hTail
  rw [← hReader] at hDelivers hReady
  exact ⟨reader, next, hStart, hReady, hDelivers⟩

/-
  A reader is opened and delivers data up to a clean end
  exactly if the bytes from its position on are a container
  of the grammar with these data.
-/
theorem delivers_iff_isContainer
    {codec : Codec}
    (hCodec : codec.Functional)
    {source : Source}
    (hFault : source.fault = none)
    (data : Bytes) :
    (∃ reader next blocks,
      (start codec).perform source = (.ok reader, next) ∧
      Delivers (reader.follow true) blocks none ∧
      blocks.flatten = data) ↔
      Grammar.IsContainer codec source.rest data := by
  rw [Grammar.isContainer_iff hCodec]
  constructor
  · rintro ⟨reader, next, blocks, hStart, hDelivers, rfl⟩
    rcases header_of_start hFault hStart with
      ⟨fields, hRegular, hMethod, hRest, hAhead, hReader⟩
    rw [hReader] at hDelivers
    have hReady := ready_standing fields codec
      (hAhead.fault.trans hFault)
    rcases (delivers_iff_walks hReady).mp hDelivers with
      ⟨found, hWalks, rfl⟩
    rcases accounts_of_walk hWalks rfl hReady with
      ⟨segments, tail, h⟩
    refine
      ⟨.header fields :: segments, tail,
        .intro hRegular h.framed, ?_, h.stop, ?_, h.blocks⟩
    · intro segment hSegment
      rcases List.mem_cons.mp hSegment with rfl | hSegment
      · exact hMethod
      · exact h.readable hCodec segment hSegment
    · have hLayout : next.rest = layout segments ++ tail :=
        h.rest
      rw [hRest, hLayout, layout_cons, List.append_assoc]
      rfl
  · rintro
      ⟨segments, tail, hComplete, hReadable, hTail, hRest, rfl⟩
    rcases delivers_of_complete hComplete hReadable hTail hFault
      hRest with
      ⟨reader, next, hStart, _, hDelivers⟩
    exact
      ⟨reader, next, _, hStart, hDelivers,
        flatten_blocks segments⟩

/-
  Two members: one with a packed and a stored frame and two
  kinds of checksums, and one without frames.
-/
def pairSegments : List Segment :=
  let first : Header :=
    .new 0x50 0 (Header.writtenFlags ⟨true, false, false, true⟩) 0
  let second : Header :=
    .new 0x50 0 (Header.writtenFlags .empty) 0
  [.header first,
    .frame (.ofFlags first.flags) ⟨[7, 7, 7, 7], [4, 7]⟩,
    .frame (.ofFlags first.flags) ⟨[1, 2], [1, 2]⟩,
    .terminator,
    .header second,
    .terminator]

/- The bytes of these members, and a byte behind them. -/
def pairBytes : Bytes :=
  [137, 76, 90, 79, 0, 13, 10, 26, 10, 16, 16, 32, 96, 9, 64, 80,
    0, 3, 0, 2, 1, 0, 0, 129, 164, 0, 0, 0, 0, 0, 0, 0, 0, 0, 38,
    72, 2, 101, 0, 0, 0, 4, 0, 0, 0, 2, 0, 74, 0, 29, 187, 209, 66,
    88, 4, 7, 0, 0, 0, 2, 0, 0, 0, 2, 0, 6, 0, 4, 1, 2, 0, 0, 0, 0,
    137, 76, 90, 79, 0, 13, 10, 26, 10, 16, 16, 32, 96, 9, 64, 80,
    0, 3, 0, 0, 0, 0, 0, 129, 164, 0, 0, 0, 0, 0, 0, 0, 0, 0, 38,
    28, 2, 98, 0, 0, 0, 0, 137]

theorem complete_pairSegments : Complete pairSegments :=
  .intro (Header.regular_new _ _ _ _)
    (.frame ⟨by decide, by decide⟩
      (.frame ⟨by decide, by decide⟩
        (.next (Header.regular_new _ _ _ _) (.last _))))

theorem readable_pairSegments :
    ∀ segment ∈ pairSegments, segment.ReadableBy .runLength := by
  intro segment hSegment
  simp only [pairSegments, List.mem_cons, List.not_mem_nil,
    or_false] at hSegment
  rcases hSegment with rfl | rfl | rfl | rfl | rfl | rfl
  · rfl
  · intro _
    exact ⟨by rfl, by rfl⟩
  · intro hLess
    exact absurd hLess (by decide)
  · trivial
  · rfl
  · trivial

theorem delivers_iff_isContainer_of_pair :
    Codec.runLength.Functional ∧
      (Source.ofBytes pairBytes).fault = none ∧
      Grammar.IsContainer .runLength pairBytes
        [7, 7, 7, 7, 1, 2] ∧
      ∃ reader next blocks,
        (start .runLength).perform (.ofBytes pairBytes) =
          (.ok reader, next) ∧
        Delivers (reader.follow true) blocks none ∧
        blocks.flatten = [7, 7, 7, 7, 1, 2] := by
  have hBytes : pairBytes = layout pairSegments ++ [137] := by
    decide +kernel
  have hContainer :
      Grammar.IsContainer .runLength pairBytes
        [7, 7, 7, 7, 1, 2] :=
    (Grammar.isContainer_iff Codec.runLength_functional).mpr
      ⟨pairSegments, [137], complete_pairSegments,
        readable_pairSegments,
        by decide, hBytes, by decide⟩
  have hSource : (Source.ofBytes pairBytes).rest = pairBytes :=
    List.drop_zero
  refine ⟨Codec.runLength_functional, rfl, hContainer, ?_⟩
  apply
    (delivers_iff_isContainer Codec.runLength_functional rfl
      _).mpr
  rw [hSource]
  exact hContainer

end ContainerReader

end SplitStream
