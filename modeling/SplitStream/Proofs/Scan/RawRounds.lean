import SplitStream.Proofs.Raw.Layout
import SplitStream.Proofs.Scan.Rounds

/-
  Scans of raw streams. A round moves over one frame, and the
  index of a stream holds the positions at which its frames
  were laid out. A raw stream starts with the length of a
  block, a container with a magic number, whose first word is
  far beyond the length of the longest block; so neither is
  taken for the other.

  Main declarations:
    * `Scan.perform_raw`
    * `Scan.RawSkips`
    * `Scan.rawSkips_of_rawRound`
    * `RawStream.take_layout_ne_magic`
    * `Scan.Detects`
    * `Scan.finds_of_contents`
-/

------------------------------------------------------------
-- Frames Laid Out
------------------------------------------------------------

namespace SplitStream

namespace Scan

open Reading

variable {source next : Source} {tail : Bytes}

/- Nothing is left where a source has come to its end. -/
theorem rest_eq_nil_iff :
    source.rest = [] ↔ source.size ≤ source.position := by
  rw [← List.length_eq_zero_iff, ← source.remaining_eq,
    Source.remaining]
  omega

/- A frame is moved over, and its position is collected. -/
theorem perform_rawRound_of_frame
    {content : PackedBlock}
    (hFits : content.RawFits)
    (hFault : source.fault = none)
    (hRest : source.rest = content.rawEncode ++ tail)
    (start : Nat)
    (found : List Nat) :
    ∃ next,
      (rawRound start source.size
          ⟨source.position, found⟩).perform source =
        (.ok (some
            ⟨next.position, (source.position - start) :: found⟩),
          next) ∧
      source.Ahead next content.rawEncode.length := by
  have hInside :=
    Source.position_add_le hRest content.length_rawEncode_pos
  have hLength := content.length_rawEncode
  have hHeader : Frame.headerSize = 8 := rfl
  simp only [PackedBlock.rawEncode_eq, List.append_assoc]
    at hRest
  rcases consumes_frameLength (lt_wordCount hFits.block_le) source
    _ hFault hRest with ⟨s₁, hPlain, hAhead₁⟩
  rcases consumes_frameLength hFits.packed_lt s₁ _
    (hAhead₁.fault.trans hFault) (hAhead₁.rest_of_eq hRest rfl)
    with ⟨s₂, hPacked, hAhead₂⟩
  have hNext :
      source.position + Frame.headerSize +
          content.packed.length =
        source.position + content.rawEncode.length := by
    omega
  have hMoved :=
    (hAhead₁.trans hAhead₂).seek content.rawEncode.length
  refine ⟨_, ?_, hMoved⟩
  have hMore : ¬ source.size ≤ source.position := by
    omega
  have hRoom :
      ¬ source.size - source.position < Frame.headerSize := by
    omega
  rw [rawRound, if_neg hMore, if_neg hRoom,
    Step.perform_bind_of_ok hPlain]
  apply (Step.perform_bind_of_ok hPacked).trans
  rw [if_neg (Nat.not_lt.mpr hFits.block_le)]
  dsimp only
  rw [hNext, if_neg (Nat.not_lt.mpr hInside), hMoved.position]
  exact Step.perform_bind_of_ok (perform_seek _ s₂)

/- At the end of its source a scan stops. -/
theorem perform_rawRound_of_end
    (hRest : source.rest = [])
    (start : Nat)
    (found : List Nat) :
    (rawRound start source.size
        ⟨source.position, found⟩).perform source =
      (.ok none, source) := by
  rw [rawRound, if_pos (rest_eq_nil_iff.mp hRest)]
  rfl

/- The positions of all frames are collected. -/
theorem perform_rawRounds
    {contents : List PackedBlock}
    (hFits : ∀ content ∈ contents, content.RawFits)
    (source : Source)
    (hFault : source.fault = none)
    (hRest : source.rest = RawStream.layout contents)
    (start n : Nat)
    (hStart : start ≤ source.position)
    (hRounds : contents.length < n)
    (found : List Nat) :
    ∃ cursor next,
      (rounds (rawRound start source.size) n
          ⟨source.position, found⟩).perform source =
        (.ok cursor, next) ∧
      cursor.found =
        (RawStream.offsets (source.position - start)
          contents).reverse ++ found := by
  induction contents generalizing source n found with
  | nil =>
    cases n with
    | zero => cases hRounds
    | succ n =>
      have hRound := perform_rawRound_of_end hRest start found
      exact ⟨_, source, perform_rounds n hRound, rfl⟩
  | cons content contents ih =>
    cases n with
    | zero => cases hRounds
    | succ n =>
      rcases perform_rawRound_of_frame
        (hFits content List.mem_cons_self) hFault hRest start
        found with ⟨later, hRound, hAhead⟩
      rcases ih
        (fun later hLater =>
          hFits later (List.mem_cons_of_mem _ hLater))
        later (hAhead.fault.trans hFault)
        (hAhead.rest_of_eq hRest rfl) n
        (by rw [hAhead.position]; omega)
        (by simp at hRounds; omega) _ with
        ⟨cursor, next, hNext, hFound⟩
      rw [hAhead.size] at hNext
      refine
        ⟨cursor, next, (perform_rounds n hRound).trans hNext, ?_⟩
      rw [hFound, hAhead.position, Nat.sub_add_comm hStart]
      simp [RawStream.offsets]

/- The index of a stream holds the positions of its frames. -/
theorem perform_raw
    {contents : List PackedBlock}
    (hFits : ∀ content ∈ contents, content.RawFits)
    (source : Source)
    (hFault : source.fault = none)
    (hRest : source.rest = RawStream.layout contents) :
    ∃ next,
      raw.perform source =
        (.ok (FrameIndex.ofContents contents), next) := by
  have hRounds : contents.length < source.remaining + 1 := by
    have hLayout := RawStream.length_le_layout contents
    rw [source.remaining_eq, hRest]
    omega
  rcases perform_rawRounds hFits source hFault hRest
    source.position _ (Nat.le_refl _) hRounds [] with
    ⟨cursor, next, hLoop, hFound⟩
  refine ⟨next, ?_⟩
  rw [Nat.sub_self, List.append_nil] at hFound
  unfold raw
  rw [Step.perform_bind_of_ok (Step.perform_get source),
    Step.perform_bind_of_ok hLoop, Step.perform_ofExcept, hFound,
    List.reverse_reverse,
    FrameIndex.ofOffsets_of_pairwise
      (RawStream.pairwise_offsets 0 contents)]
  rfl

------------------------------------------------------------
-- Frames Found
------------------------------------------------------------

/- What a round of a raw stream's scan has moved over. -/
inductive RawSkips
    (start : Nat)
    (found : List Nat)
    (source next : Source) : Option Cursor → Prop where
  | last :
      source.rest = [] →
        RawSkips start found source next none
  | frame {plain : Nat} {payload : Bytes} :
      plain ≤ maxBlockSize →
      payload.length < Bytes.wordCount 4 →
      source.rest =
        Frame.length plain ++
          (Frame.length payload.length ++
            (payload ++ next.rest)) →
      source.Ahead next (8 + payload.length) →
        RawSkips start found source next
          (some
            ⟨next.position, (source.position - start) :: found⟩)

variable
  {start : Nat}
  {found : List Nat}
  {result : Option Cursor}

/-
  Behind both lengths of a frame. The payload ends inside the
  stream, so all of it is there.
-/
theorem rawSkips_of_extent
    {middle : Source}
    {plain packed stop : Nat}
    (hPlain : plain ≤ maxBlockSize)
    (hSmall : packed < Bytes.wordCount 4)
    (hRest :
      source.rest =
        Frame.length plain ++
          (Frame.length packed ++ middle.rest))
    (hAhead : source.Ahead middle 8)
    (hStop : stop = source.position + (8 + packed))
    (hInside : stop ≤ source.size) :
    RawSkips start found source (middle.seek stop)
      (some ⟨stop, (source.position - start) :: found⟩) := by
  have hLeft := middle.remaining_eq
  rw [Source.remaining, hAhead.size, hAhead.position] at hLeft
  have hMoved := hAhead.seek (8 + packed)
  rw [← hStop] at hMoved
  have hPayload : (middle.rest.take packed).length = packed := by
    rw [List.length_take]
    omega
  have hBehind :
      (middle.seek stop).rest = middle.rest.drop packed := by
    rw [hMoved.rest, hAhead.rest, List.drop_drop]
  have hFrame :
      RawSkips start found source (middle.seek stop)
        (some
          ⟨(middle.seek stop).position,
            (source.position - start) :: found⟩) := by
    have hFew :
        (middle.rest.take packed).length < Bytes.wordCount 4 := by
      rwa [hPayload]
    refine .frame hPlain hFew ?_ ?_
    · rw [hPayload, hBehind, List.take_append_drop, hRest]
    · rw [hPayload]
      exact hMoved
  rwa [(middle.seek_spec stop).2.2] at hFrame

/- A round that succeeds has moved over what it has found. -/
theorem rawSkips_of_rawRound
    (hFault : source.fault = none)
    (hRound :
      (rawRound start source.size
          ⟨source.position, found⟩).perform source =
        (.ok result, next)) :
    RawSkips start found source next result := by
  rw [rawRound] at hRound
  by_cases hEnd : source.size ≤ source.position
  · rw [if_pos hEnd] at hRound
    cases hRound
    exact .last (rest_eq_nil_iff.mpr hEnd)
  rw [if_neg hEnd] at hRound
  rcases Step.ok_of_perform_unless hRound with ⟨_, hRun⟩
  rcases Step.ok_of_perform_bind hRun with
    ⟨plain, s₁, hPlain, hRun₁⟩
  rcases yields_number _ 4 source s₁ plain hFault hPlain with
    ⟨_, ⟨rfl, _⟩, hRest₁, hAhead₁⟩
  rcases Step.ok_of_perform_bind hRun₁ with
    ⟨packed, s₂, hPacked, hRun₂⟩
  rcases yields_number _ 4 s₁ s₂ packed
    (hAhead₁.fault.trans hFault) hPacked with
    ⟨_, ⟨rfl, hSmall⟩, hRest₂, hAhead₂⟩
  rcases Step.ok_of_perform_unless hRun₂ with ⟨hSize, hRun₃⟩
  rcases Step.ok_of_perform_unless hRun₃ with ⟨hExtent, hRun₄⟩
  rcases Step.ok_of_perform_bind hRun₄ with
    ⟨⟨⟩, _, hSeek, hPure⟩
  cases hSeek
  cases hPure
  rw [Nat.not_lt] at hSize hExtent
  have hAll : source.Ahead s₂ 8 := by
    simpa using hAhead₁.trans hAhead₂
  apply rawSkips_of_extent hSize hSmall _ hAll
    (Nat.add_assoc _ _ _) hExtent
  rw [hRest₁, hRest₂]
  rfl

/-
  A round that goes on leaves the source where it keeps track
  of it, nearer to the end.
-/
theorem RawSkips.movesOn
    {cursor : Cursor}
    (h : RawSkips start found source next (some cursor)) :
    MovesOn source cursor.position next := by
  cases h with
  | @frame plain payload _ _ hRest hAhead =>
    have hPosition := hAhead.position
    have hLength := source.remaining_eq
    rw [Source.remaining, hRest] at hLength
    simp only [List.length_append, Frame.length,
      Bytes.length_bigEndian] at hLength
    exact
      ⟨rfl, by omega, by omega, hAhead.size, hAhead.fault⟩

end Scan

------------------------------------------------------------
-- First Words
------------------------------------------------------------

/- No raw stream starts like a container. -/
theorem RawStream.take_layout_ne_magic
    {contents : List PackedBlock}
    (hFits : ∀ content ∈ contents, content.RawFits) :
    (layout contents).take 9 ≠ Container.magic := by
  cases contents with
  | nil => exact Header.take_nil_ne_magic
  | cons content contents =>
    have hFirst := hFits content List.mem_cons_self
    have hHead := Frame.head_length_ne hFirst.block_le
    apply Header.take_ne_magic
    rw [layout_cons, PackedBlock.rawEncode_eq,
      List.append_assoc, List.head?_append]
    exact hHead

------------------------------------------------------------
-- Recognised Streams
------------------------------------------------------------

namespace Scan

/- The bytes are recognised, in whatever pieces they come. -/
def Detects
    (bytes : Bytes)
    (variant : Variant) : Prop :=
  ∀ schedule, ∃ next,
    detect.perform (Source.atPosition bytes 0 none schedule) =
      (.ok variant, next)

/- A raw stream is recognised, and then scanned. -/
theorem perform_stream_of_raw
    {contents : List PackedBlock}
    (hFits : ∀ content ∈ contents, content.RawFits)
    (source : Source)
    (hFault : source.fault = none)
    (hRest : source.rest = RawStream.layout contents) :
    ∃ seen next,
      detect.perform source = (.ok .raw, seen) ∧
      stream.perform source =
        (.ok (FrameIndex.ofContents contents), next) := by
  have hMagic := RawStream.take_layout_ne_magic hFits
  rw [← hRest] at hMagic
  rcases perform_detect source hFault with
    ⟨seen, hDetect, hBack⟩
  rw [if_neg hMagic] at hDetect
  have hBackRest : seen.rest = RawStream.layout contents := by
    rw [hBack.rest, List.drop_zero, hRest]
  rcases perform_raw hFits seen (hBack.fault.trans hFault)
    hBackRest with ⟨next, hIndex⟩
  refine ⟨seen, next, hDetect, ?_⟩
  unfold stream
  rw [Step.perform_bind_of_ok hDetect]
  exact hIndex

/-
  Frames one after another are recognised as a raw stream,
  and their positions are found, whether the framing is told
  or recognised.
-/
theorem finds_of_contents
    {contents : List PackedBlock}
    (hFits : ∀ content ∈ contents, content.RawFits) :
    Detects (RawStream.layout contents) .raw ∧
      Finds raw (RawStream.layout contents)
        (.ofContents contents) ∧
      Finds stream (RawStream.layout contents)
        (.ofContents contents) := by
  refine ⟨?_, ?_, ?_⟩
  · intro schedule
    rcases perform_stream_of_raw hFits
      (.atPosition (RawStream.layout contents) 0 none schedule)
      rfl List.drop_zero with ⟨seen, _, hDetect, _⟩
    exact ⟨seen, hDetect⟩
  · intro schedule
    exact
      perform_raw hFits
        (.atPosition (RawStream.layout contents) 0 none schedule)
        rfl List.drop_zero
  · intro schedule
    rcases perform_stream_of_raw hFits
      (.atPosition (RawStream.layout contents) 0 none schedule)
      rfl List.drop_zero with ⟨_, next, _, hStream⟩
    exact ⟨next, hStream⟩

/- A source without bytes is a raw stream without frames. -/
theorem perform_stream_of_nil :
    ∃ next,
      stream.perform (.ofBytes []) = (.ok .empty, next) := by
  have hFits : ∀ content ∈ ([] : List PackedBlock), content.RawFits := by
    simp
  exact (finds_of_contents hFits).2.2 .prompt

end Scan

end SplitStream
