import SplitStream.Proofs.FrameIndex.Layout
import SplitStream.Proofs.Reader.FrameDecoding
import SplitStream.Scan

/-
  Scans of whole containers. A scan computes the length of
  each frame from its two lengths and the recorded checksums,
  and so finds the positions at which the frames were laid
  out.

  Main declarations:
    * `FrameIndex.ofSegments`
    * `Scan.perform_containerRounds`
    * `Scan.perform_container`
    * `Scan.perform_detect`
    * `Scan.perform_stream`
    * `Scan.Finds`
    * `Scan.finds_of_complete`
-/

------------------------------------------------------------
-- Indexes Of Segments
------------------------------------------------------------

namespace SplitStream

namespace FrameIndex

/- The index of segments that are laid out from the start. -/
def ofSegments
    (segments : List Segment) : FrameIndex where
  offsets := Segment.offsets 0 segments
  increasing := Segment.pairwise_offsets 0 segments

/- A frame stands behind the layout of what is before it. -/
theorem mem_ofSegments
    {front back : List Segment}
    {segment : Segment}
    (hFrame : segment.isFrame = true) :
    (Segment.layout front).length ∈
      (ofSegments (front ++ segment :: back)).offsets :=
  Segment.mem_offsets_iff.mpr
    ⟨front, segment, back, rfl, hFrame, (Nat.zero_add _).symm⟩

end FrameIndex

------------------------------------------------------------
-- Moving Over Bytes
------------------------------------------------------------

/- Wherever a source stands, it can be moved back. -/
theorem Source.Ahead.seek
    {source next : Source}
    {n : Nat}
    (h : source.Ahead next n)
    (m : Nat) :
    source.Ahead (next.seek (source.position + m)) m := by
  rcases next.seek_spec (source.position + m) with
    ⟨hContent, hFault, hPosition⟩
  exact
    ⟨hContent.trans h.content, hFault.trans h.fault, hPosition⟩

/- What is ahead of a source lies before its end. -/
theorem Source.position_add_le
    {source : Source}
    {bs tail : Bytes}
    (hRest : source.rest = bs ++ tail)
    (hSome : 0 < bs.length) :
    source.position + bs.length ≤ source.size := by
  have hLength := source.remaining_eq
  rw [hRest, List.length_append, remaining] at hLength
  omega

namespace Scan

open Reading Segment

/- A magic number ahead is seen, and is still ahead. -/
theorem perform_memberFollows
    (source : Source)
    (hFault : source.fault = none) :
    ∃ next,
      (memberFollows source.position source.size).perform
          source =
        (.ok (decide (source.rest.take 9 = Container.magic)),
          next) ∧
      source.Ahead next 0 := by
  have hLength := source.remaining_eq
  unfold Source.remaining at hLength
  by_cases hShort : source.size - source.position < 9
  · have hNone : source.rest.take 9 ≠ Container.magic := by
      intro hMagic
      have := congrArg List.length hMagic
      simp [Container.magic] at this
      omega
    refine ⟨source, ?_, .refl source⟩
    unfold memberFollows
    rw [if_pos hShort, decide_eq_false hNone]
    rfl
  · have hHead : (source.rest.take 9).length = 9 := by
      rw [List.length_take]
      omega
    rcases consumes_exactly (.io .unexpectedEnd) hHead source
      (source.rest.drop 9) hFault
      (List.take_append_drop 9 source.rest).symm with
      ⟨next, hRead, hAhead⟩
    refine
      ⟨next.seek source.position, ?_, by simpa using hAhead.seek 0⟩
    unfold memberFollows
    rw [if_neg hShort]
    apply (Step.perform_bind_of_ok hRead).trans
    rfl

------------------------------------------------------------
-- Single Segments
------------------------------------------------------------

variable {source : Source} {tail : Bytes}

/- Segments that were moved over are followed by the rest. -/
theorem rest_of_layout
    {next : Source}
    {front back : List Segment}
    (hRest : source.rest = layout (front ++ back) ++ tail)
    (hAhead : source.Ahead next (layout front).length) :
    next.rest = layout back ++ tail := by
  rw [layout_append, List.append_assoc] at hRest
  exact hAhead.rest_of_eq hRest rfl

/- A frame is moved over, and its position is collected. -/
theorem perform_frame
    {checksums : Selection}
    {content : PackedBlock}
    {rest : List Segment}
    (hFits : content.Fits)
    (hFault : source.fault = none)
    (hRest :
      source.rest =
        layout (.frame checksums content :: rest) ++ tail)
    (start : Nat)
    (found : List Nat) :
    ∃ next,
      (containerRound start source.size
          ⟨⟨source.position, found⟩, checksums⟩).perform source =
        (.ok (some
            ⟨⟨next.position, (source.position - start) :: found⟩,
              checksums⟩),
          next) ∧
      source.Ahead next
        (layout [.frame checksums content]).length := by
  have hBlock := hFits.block_le
  have hPayload := content.length_payload
  have hSmall : content.block.length < Bytes.wordCount 4 :=
    lt_wordCount hBlock
  have hPacked : content.payload.length < Bytes.wordCount 4 := by
    omega
  rw [layout_cons, List.append_assoc] at hRest
  have hExtent :
      source.position +
          (layout [.frame checksums content]).length ≤
        source.size := by
    rw [layout_cons, layout_nil, List.append_nil]
    exact Source.position_add_le hRest (length_encode_pos _)
  rw [encode, PackedBlock.encode_eq, PackedBlock.afterLength,
    List.append_assoc, List.append_assoc] at hRest
  rcases consumes_frameStart hSmall source _ hFault hRest with
    ⟨s₁, hStart, hAhead₁⟩
  rcases consumes_frameLength hPacked s₁ _
    (hAhead₁.fault.trans hFault) (hAhead₁.rest_of_eq hRest rfl)
    with ⟨s₂, hLength, hAhead₂⟩
  have hLengths :
      ¬ (maxBlockSize < content.block.length ∨
        content.block.length < content.payload.length) := by
    omega
  have hNext :
      source.position + Frame.headerSize +
          4 * Frame.sumCount checksums
            (content.payload.length = content.block.length) +
          content.payload.length =
        source.position +
          (layout [.frame checksums content]).length := by
    rw [layout_cons, layout_nil, List.append_nil, encode,
      PackedBlock.length_encode]
    omega
  have hMoved := (hAhead₁.trans hAhead₂).seek
    (layout [.frame checksums content]).length
  refine ⟨_, ?_, hMoved⟩
  rw [containerRound, Step.perform_bind_of_ok hStart]
  split
  · contradiction
  · rename_i hZero
    have := hFits.block_pos
    rw [Option.some.inj hZero] at this
    contradiction
  · rename_i plain _ hPlain
    cases Option.some.inj hPlain
    apply (Step.perform_bind_of_ok hLength).trans
    rw [if_neg hLengths]
    dsimp only
    rw [hNext, if_neg (Nat.not_lt.mpr hExtent), hMoved.position]
    exact Step.perform_bind_of_ok (perform_seek _ s₂)

/- A terminator before another member is moved over. -/
theorem perform_member
    {checksums : Selection}
    {fields : Header}
    {rest : List Segment}
    (hRegular : fields.Regular)
    (hFault : source.fault = none)
    (hRest :
      source.rest =
        layout (.terminator :: .header fields :: rest) ++ tail)
    (start : Nat)
    (found : List Nat) :
    ∃ next,
      (containerRound start source.size
          ⟨⟨source.position, found⟩, checksums⟩).perform source =
        (.ok (some
            ⟨⟨next.position, found⟩, .ofFlags fields.flags⟩),
          next) ∧
      source.Ahead next
        (layout [.terminator, .header fields]).length := by
  simp only [layout_cons, List.append_assoc] at hRest
  rcases consumes_frameStart (n := 0) (by decide) source _ hFault
    hRest with ⟨s₁, hStart, hAhead₁⟩
  have hRest₁ := hAhead₁.rest_of_eq hRest rfl
  rcases perform_memberFollows s₁ (hAhead₁.fault.trans hFault)
    with ⟨s₂, hFollows, hAhead₂⟩
  have hMagic : s₁.rest.take 9 = Container.magic := by
    rw [hRest₁]
    exact fields.take_encode _
  rw [decide_eq_true hMagic, hAhead₁.size, hAhead₁.position]
    at hFollows
  have hAhead := hAhead₁.trans hAhead₂
  have hRest₂ : s₂.rest = fields.encode ++ (layout rest ++ tail) :=
    hAhead.rest_of_eq hRest rfl
  rcases Header.consumes_read hRegular s₂ _
    (hAhead.fault.trans hFault) hRest₂ with
    ⟨s₃, hHeader, hAhead₃⟩
  have hMoved := hAhead.trans hAhead₃
  refine
    ⟨s₃, ?_, by simpa [encode, Frame.terminator] using hMoved⟩
  rw [containerRound, Step.perform_bind_of_ok hStart]
  apply (Step.perform_bind_of_ok hFollows).trans
  apply (Step.perform_bind_of_ok hHeader).trans
  rw [hMoved.position, Header.length_encode, Nat.add_assoc]
  rfl

/- Behind the last terminator the scan stops. -/
theorem perform_last
    {checksums : Selection}
    (hFault : source.fault = none)
    (hRest : source.rest = layout [.terminator] ++ tail)
    (hTail : tail.take 9 ≠ Container.magic)
    (start : Nat)
    (found : List Nat) :
    ∃ next,
      (containerRound start source.size
          ⟨⟨source.position, found⟩, checksums⟩).perform source =
        (.ok none, next) := by
  simp only [layout_cons, layout_nil, List.append_assoc] at hRest
  rcases consumes_frameStart (n := 0) (by decide) source _ hFault
    hRest with ⟨s₁, hStart, hAhead₁⟩
  have hRest₁ := hAhead₁.rest_of_eq hRest rfl
  rcases perform_memberFollows s₁ (hAhead₁.fault.trans hFault)
    with ⟨s₂, hFollows, _⟩
  have hMagic : s₁.rest.take 9 ≠ Container.magic := by
    simpa [hRest₁] using hTail
  rw [decide_eq_false hMagic, hAhead₁.size, hAhead₁.position]
    at hFollows
  refine ⟨s₂, ?_⟩
  rw [containerRound, Step.perform_bind_of_ok hStart]
  exact Step.perform_bind_of_ok hFollows

------------------------------------------------------------
-- Whole Containers
------------------------------------------------------------

/- The loop goes on with the state that a round leaves. -/
theorem perform_rounds
    {σ : Type}
    {round : σ → Reading (Option σ)}
    {state : σ}
    {source next : Source}
    {found : Option σ}
    (n : Nat) :
    (round state).perform source = (.ok found, next) →
      (rounds round (n + 1) state).perform source =
        match found with
        | none => (.ok state, next)
        | some state => (rounds round n state).perform next := by
  intro hRound
  rw [rounds, Step.perform_bind_of_ok hRound]
  rcases found with _ | state <;> rfl

/- The positions of all frames are collected. -/
theorem perform_containerRounds
    {checksums : Selection}
    {segments : List Segment}
    (hFramed : Framed checksums segments)
    (hTail : tail.take 9 ≠ Container.magic)
    (source : Source)
    (hFault : source.fault = none)
    (hRest : source.rest = layout segments ++ tail)
    (start n : Nat)
    (hStart : start ≤ source.position)
    (hRounds : segments.length ≤ n)
    (found : List Nat) :
    ∃ cursor next,
      (rounds (containerRound start source.size) n
          ⟨⟨source.position, found⟩, checksums⟩).perform source =
        (.ok cursor, next) ∧
      cursor.found =
        (offsets (source.position - start) segments).reverse
          ++ found := by
  induction hFramed generalizing source n found with
  | last checksums =>
    cases n with
    | zero => contradiction
    | succ n =>
      rcases perform_last hFault hRest hTail start found with
        ⟨next, hRound⟩
      exact ⟨_, next, perform_rounds n hRound, rfl⟩
  | @next _ fields rest hRegular _ ih =>
    cases n with
    | zero => contradiction
    | succ n =>
      rcases perform_member hRegular hFault hRest start found
        with ⟨later, hRound, hAhead⟩
      rcases ih later (hAhead.fault.trans hFault)
        (rest_of_layout hRest hAhead) n
        (by rw [hAhead.position]; omega)
        (by simp at hRounds; omega) found with
        ⟨cursor, next, hNext, hFound⟩
      rw [hAhead.size] at hNext
      refine
        ⟨cursor, next, (perform_rounds n hRound).trans hNext, ?_⟩
      rw [hFound, hAhead.position, Nat.sub_add_comm hStart]
      simp [offsets, isFrame, Nat.add_assoc]
  | @frame checksums content rest hFits hFramed ih =>
    cases n with
    | zero => contradiction
    | succ n =>
      rcases perform_frame hFits hFault hRest start found with
        ⟨later, hRound, hAhead⟩
      rcases ih later (hAhead.fault.trans hFault)
        (rest_of_layout hRest hAhead) n
        (by rw [hAhead.position]; omega)
        (by simp at hRounds; omega) _ with
        ⟨cursor, next, hNext, hFound⟩
      rw [hAhead.size] at hNext
      refine
        ⟨cursor, next, (perform_rounds n hRound).trans hNext, ?_⟩
      rw [hFound, hAhead.position, Nat.sub_add_comm hStart]
      simp [offsets, isFrame]

/- The index of a container holds the positions of its frames. -/
theorem perform_container
    {segments : List Segment}
    (hComplete : Complete segments)
    (hTail : tail.take 9 ≠ Container.magic)
    (source : Source)
    (hFault : source.fault = none)
    (hRest : source.rest = layout segments ++ tail) :
    ∃ next,
      container.perform source =
        (.ok (FrameIndex.ofSegments segments), next) := by
  have hRounds : segments.length ≤ source.remaining + 1 := by
    have hLayout := length_le_layout segments
    rw [source.remaining_eq, hRest, List.length_append]
    omega
  cases hComplete with
  | @intro fields rest hRegular hFramed =>
    have hHeader : source.rest = fields.encode ++ (layout rest ++ tail) := by
      rw [hRest, layout_cons, List.append_assoc]
      rfl
    rcases Header.consumes_read hRegular source _ hFault hHeader
      with ⟨opened, hRead, hAhead⟩
    have hShort : rest.length ≤ source.remaining + 1 := by
      simp only [List.length_cons] at hRounds
      omega
    rcases perform_containerRounds hFramed hTail opened
      (hAhead.fault.trans hFault)
      (hAhead.rest_of_eq hHeader rfl) source.position
      (source.remaining + 1) (by rw [hAhead.position]; omega)
      hShort [] with ⟨cursor, next, hLoop, hFound⟩
    refine ⟨next, ?_⟩
    rw [hAhead.size, hAhead.position] at hLoop
    rw [hAhead.position, Nat.add_sub_cancel_left,
      List.append_nil] at hFound
    unfold container
    rw [Step.perform_bind_of_ok (Step.perform_get source),
      Step.perform_bind_of_ok hRead, ← Header.length_encode,
      Step.perform_bind_of_ok hLoop, Step.perform_ofExcept,
      hFound, List.reverse_reverse]
    have hOffsets :
        offsets 0 (.header fields :: rest) =
          offsets fields.encode.length rest := by
      simp [offsets, isFrame, encode]
    rw [FrameIndex.ofOffsets_of_pairwise
      (pairwise_offsets _ rest)]
    simp only [FrameIndex.ofSegments, hOffsets]

/-
  A magic number tells which framing a stream has. The source
  is left where it stood.
-/
theorem perform_detect
    (source : Source)
    (hFault : source.fault = none) :
    ∃ next,
      detect.perform source =
        (.ok (if source.rest.take 9 = Container.magic then
            .container
          else
            .raw),
          next) ∧
      source.Ahead next 0 := by
  rcases perform_upTo source 9 hFault with
    ⟨seen, hHead, hAhead⟩
  have hPosition :
      Reading.position.perform source =
        (.ok source.position, source) :=
    rfl
  refine ⟨seen.seek source.position, ?_, hAhead.seek 0⟩
  unfold detect
  rw [Step.perform_bind_of_ok hPosition,
    Step.perform_bind_of_ok hHead,
    Step.perform_bind_of_ok (perform_seek _ seen)]
  rfl

/- A container is recognised, and then scanned. -/
theorem perform_stream
    {segments : List Segment}
    (hComplete : Complete segments)
    (hTail : tail.take 9 ≠ Container.magic)
    (source : Source)
    (hFault : source.fault = none)
    (hRest : source.rest = layout segments ++ tail) :
    ∃ next,
      stream.perform source =
        (.ok (FrameIndex.ofSegments segments), next) := by
  have hMagic : source.rest.take 9 = Container.magic := by
    cases hComplete with
    | intro _ _ =>
      rw [hRest, layout_cons, List.append_assoc]
      exact Header.take_encode _ _
  rcases perform_detect source hFault with
    ⟨seen, hDetect, hBack⟩
  rw [if_pos hMagic] at hDetect
  have hBackRest : seen.rest = layout segments ++ tail := by
    rw [hBack.rest, List.drop_zero, hRest]
  rcases perform_container hComplete hTail seen
    (hBack.fault.trans hFault) hBackRest with ⟨next, hIndex⟩
  refine ⟨next, ?_⟩
  unfold stream
  rw [Step.perform_bind_of_ok hDetect]
  exact hIndex

------------------------------------------------------------
-- Found Indexes
------------------------------------------------------------

/- A scan finds an index, in whatever pieces the bytes come. -/
def Finds
    (scan : Reading FrameIndex)
    (bytes : Bytes)
    (index : FrameIndex) : Prop :=
  ∀ schedule, ∃ next,
    scan.perform (Source.atPosition bytes 0 none schedule) =
      (.ok index, next)

theorem Finds.index_unique
    {scan : Reading FrameIndex}
    {bytes : Bytes}
    {index other : FrameIndex}
    (hIndex : Finds scan bytes index)
    (hOther : Finds scan bytes other) :
    index = other := by
  rcases hIndex .prompt with ⟨_, hFound⟩
  rcases hOther .prompt with ⟨_, hAgain⟩
  rw [hFound] at hAgain
  exact Except.ok.inj (Prod.mk.inj hAgain).1

/- Whole members are scanned, whether told or recognised. -/
theorem finds_of_complete
    {segments : List Segment}
    (hComplete : Complete segments) :
    Finds container (layout segments) (.ofSegments segments) ∧
      Finds stream (layout segments)
        (.ofSegments segments) := by
  constructor
  · intro schedule
    apply perform_container hComplete
      Header.take_nil_ne_magic _ rfl
    exact (List.append_nil _).symm
  · intro schedule
    apply perform_stream hComplete
      Header.take_nil_ne_magic _ rfl
    exact (List.append_nil _).symm

end Scan

end SplitStream
