import SplitStream.Proofs.Reader.Truncation
import SplitStream.Proofs.Scan.ContainerAgreement

/-
  Scans of containers that have been cut short. A scan does
  not read payloads, so it sees from the declared lengths that
  one is missing; all other parts it misses as a reader does.
  Both come to a clean end behind the same cuts.

  Main declarations:
    * `Scan.truncates_containerRound`
    * `Scan.truncates_containerRounds`
    * `Scan.CopesWith`
    * `Scan.CopesWithContainer`
    * `Scan.copesWith_of_complete`
-/

------------------------------------------------------------
-- Rounds
------------------------------------------------------------

namespace SplitStream

namespace Scan

open Reading Segment

variable {source : Source} {missing : Bytes}

/- No frame is found where the word in front of it is cut. -/
theorem truncates_round_of_start
    {n : Nat}
    (hFault : source.fault = none)
    (hMissing : missing ≠ [])
    (hRest : source.rest ++ missing = Frame.length n)
    (start stop : Nat)
    (cursor : MemberCursor) :
    Step.Truncates (containerRound start stop cursor) source := by
  rcases truncates_frameStart source hFault hMissing hRest with
    ⟨next, hStart⟩ | hCut
  · refine ⟨.endMarker, next, ?_⟩
    rw [containerRound, Step.perform_bind_of_ok hStart]
    rfl
  · exact hCut.bind

/-
  A payload that is cut ends behind the end of the source.
  Both lengths are there, or one of them is cut.
-/
theorem truncates_round_of_frame
    {checksums : Selection}
    {content : PackedBlock}
    (hFits : content.Fits)
    (hFault : source.fault = none)
    (hMissing : missing ≠ [])
    (hRest : source.rest ++ missing = content.encode checksums)
    (start : Nat)
    (found : List Nat) :
    Step.Truncates
      (containerRound start source.size
        ⟨⟨source.position, found⟩, checksums⟩)
      source := by
  have hBlock := hFits.block_le
  have hPayload := content.length_payload
  have hSmall : content.block.length < Bytes.wordCount 4 :=
    lt_wordCount hBlock
  have hPacked : content.payload.length < Bytes.wordCount 4 := by
    omega
  have hShort :
      source.rest.length < (content.encode checksums).length := by
    have hSome := List.length_pos_iff.mpr hMissing
    rw [← hRest, List.length_append]
    omega
  rw [PackedBlock.length_encode] at hShort
  rw [PackedBlock.encode_eq] at hRest
  rcases cut_of_append hRest with
    ⟨short, hLost, hCut⟩ | ⟨rest₁, hRest₁, hMore₁⟩
  · exact truncates_round_of_start hFault hLost hCut _ _ _
  rcases consumes_frameStart hSmall source _ hFault hRest₁ with
    ⟨s₁, hStart, hAhead₁⟩
  have hFault₁ := hAhead₁.fault.trans hFault
  rw [← hAhead₁.rest_of_eq hRest₁ rfl, PackedBlock.afterLength]
    at hMore₁
  unfold containerRound
  refine .behind ?_ hStart
  split
  · contradiction
  · rename_i hZero
    have hSome := hFits.block_pos
    rw [Option.some.inj hZero] at hSome
    contradiction
  rename_i plain _ hPlain
  cases Option.some.inj hPlain
  rcases cut_of_append hMore₁ with
    ⟨short, hLost, hCut⟩ | ⟨rest₂, hRest₂, _⟩
  · have hStarves := starves_frameLength hPacked
    exact (hStarves s₁ short hFault₁ hLost hCut).bind
  rcases consumes_frameLength hPacked s₁ _ hFault₁ hRest₂ with
    ⟨s₂, hLength, _⟩
  have hLengths :
      ¬ (maxBlockSize < content.block.length ∨
        content.block.length < content.payload.length) := by
    omega
  have hExtent :
      source.size <
        source.position + Frame.headerSize +
            4 * Frame.sumCount checksums
              (content.payload.length = content.block.length) +
          content.payload.length := by
    have hLeft := source.remaining_eq
    rw [Source.remaining] at hLeft
    omega
  refine .behind ?_ hLength
  rw [if_neg hLengths]
  dsimp only
  rw [if_pos hExtent]
  exact ⟨.frameExtent, s₂, rfl⟩

/- A header that is recognised is read, and found to be cut. -/
theorem truncates_round_of_header
    {fields : Header}
    {left : Bytes}
    {checksums : Selection}
    (hRegular : fields.Regular)
    (hLong : 9 ≤ left.length)
    (hFault : source.fault = none)
    (hMissing : missing ≠ [])
    (hLeft : left ++ missing = fields.encode)
    (hRest : source.rest = Frame.terminator ++ left)
    (start : Nat)
    (found : List Nat) :
    Step.Truncates
      (containerRound start source.size
        ⟨⟨source.position, found⟩, checksums⟩)
      source := by
  rcases consumes_frameStart (n := 0) (by decide) source _ hFault
    hRest with ⟨s₁, hStart, hAhead₁⟩
  have hFault₁ := hAhead₁.fault.trans hFault
  have hRest₁ : s₁.rest = left := hAhead₁.rest_of_eq hRest rfl
  rcases perform_memberFollows s₁ hFault₁ with
    ⟨s₂, hFollows, hAhead₂⟩
  have hMagic : s₁.rest.take 9 = Container.magic := by
    have hWhole := fields.take_encode []
    rw [List.append_nil, ← hLeft,
      List.take_append_of_le_length hLong] at hWhole
    rw [hRest₁]
    exact hWhole
  rw [decide_eq_true hMagic, hAhead₁.size, hAhead₁.position]
    at hFollows
  have hRest₂ : s₂.rest = left := by
    rw [hAhead₂.rest, List.drop_zero, hRest₁]
  rw [← hRest₂] at hLeft
  have hHeader :=
    Header.starves_read hRegular s₂ missing
      (hAhead₂.fault.trans hFault₁) hMissing hLeft
  unfold containerRound
  refine .behind ?_ hStart
  refine .behind ?_ hFollows
  exact hHeader.bind

/- A round does not pass a segment that is cut. -/
theorem truncates_containerRound
    {checksums : Selection}
    {segments : List Segment}
    (hFault : source.fault = none)
    (hSevered : Severed checksums segments source.rest)
    (start : Nat)
    (found : List Nat) :
    Step.Truncates
      (containerRound start source.size
        ⟨⟨source.position, found⟩, checksums⟩)
      source := by
  generalize hRest : source.rest = tail at hSevered
  cases hSevered with
  | frame hFits hMissing hLeft =>
    rw [← hRest] at hLeft
    exact
      truncates_round_of_frame hFits hFault hMissing hLeft start
        found
  | terminator hMissing hLeft =>
    rw [← hRest] at hLeft
    exact
      truncates_round_of_start hFault hMissing hLeft start
        source.size ⟨⟨source.position, found⟩, checksums⟩
  | header hRegular hLong hMissing hLeft =>
    exact
      truncates_round_of_header hRegular hLong hFault hMissing
        hLeft hRest start found

/-
  The loop moves over all segments that lead to one that is
  cut. The induction is on these segments.
-/
theorem truncates_containerRounds
    {first last : Selection}
    {front segments : List Segment}
    {tail : Bytes}
    (hLeads : Leads first front last)
    (hSevered : Severed last segments tail)
    (source : Source)
    (hFault : source.fault = none)
    (hRest : source.rest = layout front ++ tail)
    (start n : Nat)
    (hRounds : front.length < n)
    (found : List Nat) :
    Step.Truncates
      (rounds (containerRound start source.size) n
        ⟨⟨source.position, found⟩, first⟩)
      source := by
  induction hLeads generalizing source n found with
  | here checksums =>
    have hTail : source.rest = tail := hRest
    rw [← hTail] at hSevered
    cases n with
    | zero => cases hRounds
    | succ n =>
      exact
        (truncates_containerRound hFault hSevered start
          found).bind
  | @next _ _ fields rest hRegular _ ih =>
    cases n with
    | zero => cases hRounds
    | succ n =>
      rcases perform_member hRegular hFault hRest start found
        with ⟨later, hRound, hAhead⟩
      have hMore :=
        ih hSevered later (hAhead.fault.trans hFault)
          (rest_of_layout hRest hAhead) n
          (by simp at hRounds; omega) found
      rw [hAhead.size] at hMore
      rw [rounds]
      refine .behind ?_ hRound
      exact hMore
  | @frame checksums _ content rest hFits _ ih =>
    cases n with
    | zero => cases hRounds
    | succ n =>
      rcases perform_frame hFits hFault hRest start found
        with ⟨later, hRound, hAhead⟩
      have hMore :=
        ih hSevered later (hAhead.fault.trans hFault)
          (rest_of_layout hRest hAhead) n
          (by simp at hRounds; omega)
          ((source.position - start) :: found)
      rw [hAhead.size] at hMore
      rw [rounds]
      refine .behind ?_ hRound
      exact hMore

------------------------------------------------------------
-- Cut Containers
------------------------------------------------------------

/-
  What a reader and a scan make of the first bytes of a
  stream. The reader delivers the blocks that are wholly
  there. If the bytes are a stream again, both come to a clean
  end, and the scan finds the frames; otherwise both tell that
  the source is truncated.
-/
structure CopesWith
    (source : Source)
    (scan : Reading FrameIndex)
    (Reads : List (Nat × Bytes) → Option Error → Prop)
    (clean : Prop)
    (blocks : List Bytes)
    (index : FrameIndex) : Prop where
  ends :
    clean →
      (∃ found,
        Reads found none ∧ found.map Prod.snd = blocks) ∧
      ∃ next, scan.perform source = (.ok index, next)
  truncates :
    ¬ clean →
      (∃ found cut,
        Reads found (some (.truncated cut)) ∧
        found.map Prod.snd = blocks) ∧
      Step.Truncates scan source

/-
  A container whose first bytes are there. It ends wherever
  a terminator does, and shortly behind it.
-/
def CopesWithContainer
    (codec : Codec)
    (segments : List Segment)
    (source : Source) : Prop :=
  CopesWith source container (ContainerReader.Reads codec source)
    (EndsNear source.rest.length segments)
    (blocks (inside source.rest.length segments))
    (.ofSegments (inside source.rest.length segments))

variable
  {codec : Codec} {fields : Header} {last : Selection}
  {segments front : List Segment} {left tail : Bytes}

/- A cut through the first header leaves nothing to read. -/
theorem copesWith_of_header
    (hRegular : fields.Regular)
    (hFault : source.fault = none)
    (hMissing : missing ≠ [])
    (hRest : source.rest ++ missing = fields.encode) :
    CopesWithContainer codec (.header fields :: segments) source := by
  have hShort :
      source.rest.length < (header fields).encode.length := by
    have hSome := List.length_pos_iff.mpr hMissing
    rw [encode, ← hRest, List.length_append]
    omega
  have hFar := not_endsNear_of_lt hShort segments
  have hHeader :=
    Header.starves_read hRegular source missing hFault hMissing
      hRest
  refine ⟨fun hNear => absurd hNear hFar, fun _ => ⟨?_, ?_⟩⟩
  · have hStart :
        Step.Truncates (ContainerReader.start codec) source :=
      hHeader.bind
    rcases hStart with ⟨cut, next, hRefused⟩
    refine ⟨[], cut, .refused hRefused, ?_⟩
    rw [inside_of_lt hShort]
    rfl
  · unfold container
    refine .behind ?_ (Step.perform_get source)
    exact hHeader.bind

/- What is a container again is read and scanned as one. -/
theorem copesWith_of_closes
    (hRegular : fields.Regular)
    (hReadable :
      ∀ segment ∈ header fields :: segments,
        segment.ReadableBy codec)
    (hFault : source.fault = none)
    (hRest : source.rest = fields.encode ++ left)
    (h :
      Closes (.ofFlags fields.flags) segments left front tail) :
    CopesWithContainer codec (.header fields :: segments) source := by
  have hLength :
      source.rest.length =
        (header fields).encode.length + left.length := by
    rw [hRest, List.length_append]
    rfl
  have hTail := Header.take_short_ne_magic h.few
  have hWhole : Complete (.header fields :: front) :=
    .intro hRegular h.framed
  have hLayout :
      source.rest = layout (.header fields :: front) ++ tail := by
    rw [hRest, h.layout_eq, layout_cons, List.append_assoc]
    rfl
  have hFront :
      ∀ segment ∈ header fields :: front,
        segment.ReadableBy codec := by
    intro segment hSegment
    exact
      hReadable segment
        (List.cons_subset_cons _ h.subset hSegment)
  have hNear :=
    (endsNear_header_iff fields segments left.length).mpr h.near
  have hInside := inside_cons (header fields) segments left.length
  rw [← hLength] at hNear hInside
  refine ⟨fun _ => ⟨?_, ?_⟩, fun hFar => absurd hNear hFar⟩
  · rw [hInside, h.inside_eq]
    exact
      ContainerReader.reads_of_complete hWhole hFront hTail
        hFault hLayout
  · rw [hInside, h.inside_eq]
    exact perform_container hWhole hTail source hFault hLayout

/- A segment that is severed stops a reader and a scan. -/
theorem copesWith_of_breaks
    (hRegular : fields.Regular)
    (hReadable :
      ∀ segment ∈ header fields :: segments,
        segment.ReadableBy codec)
    (hFault : source.fault = none)
    (hRest : source.rest = fields.encode ++ left)
    (h :
      Breaks (.ofFlags fields.flags) segments left front last
        tail) :
    CopesWithContainer codec (.header fields :: segments) source := by
  have hLength :
      source.rest.length =
        (header fields).encode.length + left.length := by
    rw [hRest, List.length_append]
    rfl
  have hFar :=
    mt (endsNear_header_iff fields segments left.length).mp h.far
  have hInside := inside_cons (header fields) segments left.length
  rw [← hLength] at hFar hInside
  rw [h.layout_eq] at hRest
  rcases h.severed with ⟨back, _, hSevered⟩
  refine ⟨fun hNear => absurd hNear hFar, fun _ => ⟨?_, ?_⟩⟩
  · rcases ContainerReader.start_of_header hRegular
      (hReadable (.header fields) List.mem_cons_self) hFault
      hRest with
      ⟨reader, next, hStart, hAhead, hReader⟩
    have hNoFault := hAhead.fault.trans hFault
    have hBefore :
        (ContainerReader.standing next fields codec).Before front
          tail :=
      { stage := rfl
        follow := rfl
        fault := hNoFault
        rest := hAhead.rest_of_eq hRest rfl
        readable := fun segment hSegment =>
          hReadable segment
            (List.mem_cons_of_mem _ (h.subset hSegment)) }
    rcases ContainerReader.delivers_of_severed h.leads hBefore
      hSevered with ⟨cut, hDelivers⟩
    rw [← hReader] at hDelivers hBefore
    rcases ContainerReader.reads_of_delivers hStart hBefore.ready
      hDelivers with ⟨found, hReads, hBlocks⟩
    refine ⟨found, cut, hReads, ?_⟩
    rw [hBlocks, hInside, ← h.blocks_eq]
    rfl
  · rcases Header.consumes_read hRegular source _ hFault hRest
      with ⟨next, hRead, hAhead⟩
    have hRounds : front.length < source.remaining + 1 := by
      have hFront := length_le_layout front
      rw [source.remaining_eq, hRest]
      simp only [List.length_append]
      omega
    have hLoop :=
      truncates_containerRounds h.leads hSevered next
        (hAhead.fault.trans hFault)
        (hAhead.rest_of_eq hRest rfl) source.position _ hRounds
        []
    rw [hAhead.size, hAhead.position, Header.length_encode]
      at hLoop
    unfold container
    refine .behind ?_ (Step.perform_get source)
    refine .behind ?_ hRead
    exact hLoop.bind

/- Whatever a cut leaves of a container, it is recognised. -/
theorem copesWith_of_complete
    {more : Bytes}
    (hComplete : Complete segments)
    (hReadable :
      ∀ segment ∈ segments, segment.ReadableBy codec)
    (hFault : source.fault = none)
    (hRest : source.rest ++ more = layout segments) :
    CopesWithContainer codec segments source := by
  rcases hComplete with ⟨hRegular, hFramed⟩
  rw [layout_cons] at hRest
  rcases cut_of_append hRest with
    ⟨missing, hMissing, hCut⟩ | ⟨left, hLeft, hMore⟩
  · exact copesWith_of_header hRegular hFault hMissing hCut
  rcases hFramed.remains hMore with
    ⟨front, tail, h⟩ | ⟨front, last, tail, h⟩
  · exact
      copesWith_of_closes hRegular hReadable hFault hLeft h
  · exact
      copesWith_of_breaks hRegular hReadable hFault hLeft h

end Scan

end SplitStream
