import SplitStream.Proofs.Container.Scanning
import SplitStream.Proofs.Reader.Rounds

/-
  Rounds of scans. A round that succeeds has moved over a
  frame, over a terminator and the header behind it, or over
  the last terminator, and the position that it keeps track
  of is that of the source.

  Main declarations:
    * `Scan.Goes`
    * `Scan.Tracks`
    * `Scan.Skips`
    * `Scan.skips_of_containerRound`
-/

------------------------------------------------------------
-- Loops
------------------------------------------------------------

namespace SplitStream

namespace Scan

open Reading

/-
  The rounds of a loop lead from one state and source to
  another.
-/
inductive Goes
    {σ : Type}
    (round : σ → Reading (Option σ)) :
    σ → Source → σ → Source → Prop where
  | here (state : σ) (source : Source) :
      Goes round state source state source
  | more {state next last : σ} {source middle final : Source} :
      (round state).perform source = (.ok (some next), middle) →
        Goes round next middle last final →
          Goes round state source last final

/- What each round keeps holds wherever the loop comes. -/
theorem Goes.keeps
    {σ : Type}
    {round : σ → Reading (Option σ)}
    {state last : σ}
    {source final : Source}
    {Holds : σ → Source → Prop}
    (hGoes : Goes round state source last final)
    (hStep :
      ∀ state source next middle,
        Holds state source →
          (round state).perform source =
              (.ok (some next), middle) →
            Holds next middle)
    (hFirst : Holds state source) :
    Holds last final := by
  induction hGoes with
  | here _ _ => exact hFirst
  | more hRound _ ih => exact ih (hStep _ _ _ _ hFirst hRound)

------------------------------------------------------------
-- Tracked Positions
------------------------------------------------------------

/-
  A source has moved on inside a stream, and the position
  that is kept track of is where it stands.
-/
structure MovesOn
    (source : Source)
    (position : Nat)
    (next : Source) : Prop where
  position : position = next.position
  ahead : source.position < next.position
  inside : next.position ≤ source.size
  size : next.size = source.size
  fault : next.fault = source.fault

/-
  A loop that started at a source keeps track of the position
  of the source, which does not leave the stream.
-/
structure Tracks
    (source : Source)
    (position : Nat)
    (current : Source) : Prop where
  position : position = current.position
  start_le : source.position ≤ current.position
  inside : current.position ≤ source.size
  size : current.size = source.size
  fault : current.fault = source.fault

theorem Tracks.movesOn
    {source current next : Source}
    {position tracked : Nat}
    (h : Tracks source position current)
    (hMoves : MovesOn current tracked next) :
    Tracks source tracked next where
  position := hMoves.position
  start_le :=
    Nat.le_trans h.start_le (Nat.le_of_lt hMoves.ahead)
  inside := h.size ▸ hMoves.inside
  size := hMoves.size.trans h.size
  fault := hMoves.fault.trans h.fault

------------------------------------------------------------
-- Rounds In Containers
------------------------------------------------------------

/- What a round of a container's scan has moved over. -/
inductive Skips
    (start : Nat)
    (found : List Nat)
    (checksums : Selection)
    (source next : Source) : Option MemberCursor → Prop where
  | last {tail : Bytes} :
      source.rest = Frame.length 0 ++ tail →
      tail.take 9 ≠ Container.magic →
        Skips start found checksums source next none
  | member {fields : Header} :
      fields.Regular →
      source.rest =
        Frame.length 0 ++ (fields.encode ++ next.rest) →
      source.Ahead next (4 + fields.encode.length) →
        Skips start found checksums source next
          (some
            ⟨⟨next.position, found⟩, .ofFlags fields.flags⟩)
  | frame {plain : Nat}
      {plainSums packedSums payload : Bytes} :
      0 < plain →
      plain ≤ maxBlockSize →
      payload.length ≤ plain →
      plainSums.length = 4 * (checksums.kinds .plain).length →
      (packedSums.length =
        if payload.length = plain then
          0
        else
          4 * (checksums.kinds .packed).length) →
      source.rest =
        Frame.length plain ++
          (Frame.length payload.length ++
            (plainSums ++
              (packedSums ++ (payload ++ next.rest)))) →
      source.Ahead next
        (8 + (plainSums.length +
          (packedSums.length + payload.length))) →
        Skips start found checksums source next
          (some
            ⟨⟨next.position, (source.position - start) :: found⟩,
              checksums⟩)

/-
  Behind the lengths of a frame, as many bytes as it claims
  are its checksums and its payload.
-/
theorem exists_parts
    (checksums : Selection)
    (plain packed : Nat)
    (bs : Bytes)
    (h :
      4 * Frame.sumCount checksums (packed = plain) + packed ≤
        bs.length) :
    ∃ plainSums packedSums payload rest,
      bs = plainSums ++ (packedSums ++ (payload ++ rest)) ∧
      plainSums.length = 4 * (checksums.kinds .plain).length ∧
      (packedSums.length =
        if packed = plain then
          0
        else
          4 * (checksums.kinds .packed).length) ∧
      payload.length = packed ∧
      plainSums.length + (packedSums.length + payload.length) =
        4 * Frame.sumCount checksums (packed = plain) +
          packed := by
  let a := 4 * (checksums.kinds .plain).length
  let b :=
    if packed = plain then
      0
    else
      4 * (checksums.kinds .packed).length
  have hSums :
      4 * Frame.sumCount checksums (packed = plain) = a + b := by
    unfold Frame.sumCount Selection.count
    by_cases hStored : packed = plain
    · simp [a, b, hStored]
    · simp [a, b, hStored]
      omega
  rw [hSums] at h ⊢
  refine
    ⟨bs.take a, (bs.drop a).take b,
      ((bs.drop a).drop b).take packed,
      ((bs.drop a).drop b).drop packed, ?_, ?_, ?_, ?_, ?_⟩
  · rw [List.take_append_drop, List.take_append_drop,
      List.take_append_drop]
  · rw [List.length_take]
    omega
  · rw [List.length_take, List.length_drop]
    omega
  · rw [List.length_take, List.length_drop, List.length_drop]
    omega
  · simp only [List.length_take, List.length_drop]
    omega

variable
  {start : Nat}
  {found : List Nat}
  {checksums : Selection}
  {source next : Source}
  {result : Option MemberCursor}

/- Behind a terminator. -/
theorem skips_of_terminator
    {middle : Source}
    (hFault : source.fault = none)
    (hRest : source.rest = Frame.length 0 ++ middle.rest)
    (hAhead : source.Ahead middle 4)
    (hRun :
      (do
        if ← memberFollows (source.position + 4) source.size then
          let header ← Header.read
          return some
            ⟨⟨source.position + 4 + header.encodedLength, found⟩,
              .ofFlags header.flags⟩
        else
          return none : Reading (Option MemberCursor)).perform
          middle =
        (.ok result, next)) :
    Skips start found checksums source next result := by
  have hFault₁ := hAhead.fault.trans hFault
  rcases perform_memberFollows middle hFault₁ with
    ⟨seen, hFollows, hSeen⟩
  rw [hAhead.position, hAhead.size] at hFollows
  rw [Step.perform_bind_of_ok hFollows] at hRun
  by_cases hMagic : middle.rest.take 9 = Container.magic
  · rw [if_pos (decide_eq_true hMagic)] at hRun
    rcases Step.ok_of_perform_bind hRun with
      ⟨fields, last, hRead, hPure⟩
    cases hPure
    rcases Header.yields_read seen next fields
      (hSeen.fault.trans hFault₁) hRead with
      ⟨_, ⟨rfl, hRegular⟩, hMore, hMoved⟩
    have hSame : seen.rest = middle.rest := by
      simpa using hSeen.rest
    have hAll := (hAhead.trans hSeen).trans hMoved
    rw [Nat.add_zero] at hAll
    have hCursor :
        next.position =
          source.position + 4 + fields.encodedLength := by
      rw [hAll.position, ← Header.length_encode, Nat.add_assoc]
    rw [← hCursor]
    refine .member hRegular ?_ hAll
    rw [hRest, ← hSame, hMore]
  · rw [if_neg (by simpa using hMagic)] at hRun
    cases hRun
    exact .last hRest hMagic

/-
  Behind both lengths of a frame. The frame ends inside the
  stream, so all of its parts are there.
-/
theorem skips_of_extent
    {middle : Source}
    {plain packed stop : Nat}
    (hPos : 0 < plain)
    (hPlain : plain ≤ maxBlockSize)
    (hPacked : packed ≤ plain)
    (hRest :
      source.rest =
        Frame.length plain ++
          (Frame.length packed ++ middle.rest))
    (hAhead : source.Ahead middle 8)
    (hStop :
      stop =
        source.position +
          (8 +
            (4 * Frame.sumCount checksums (packed = plain) +
              packed)))
    (hInside : stop ≤ source.size) :
    Skips start found checksums source (middle.seek stop)
      (some
        ⟨⟨stop, (source.position - start) :: found⟩,
          checksums⟩) := by
  have hLength := middle.remaining_eq
  rw [Source.remaining, hAhead.size, hAhead.position] at hLength
  rcases exists_parts checksums plain packed middle.rest
    (by omega) with
    ⟨plainSums, packedSums, payload, rest, hBody, hPlainSums,
      hPackedSums, rfl, hTotal⟩
  rw [← hTotal] at hStop
  have hMoved :=
    hAhead.seek
      (8 + (plainSums.length +
        (packedSums.length + payload.length)))
  rw [← hStop] at hMoved
  have hSplit :
      source.rest =
        (Frame.length plain ++
          (Frame.length payload.length ++
            (plainSums ++ (packedSums ++ payload)))) ++ rest := by
    rw [hRest, hBody]
    simp only [List.append_assoc]
  have hBehind : (middle.seek stop).rest = rest := by
    apply hMoved.rest_of_eq hSplit
    simp only [List.length_append, Frame.length,
      Bytes.length_bigEndian]
    omega
  have hFrame :
      Skips start found checksums source (middle.seek stop)
        (some
          ⟨⟨(middle.seek stop).position,
              (source.position - start) :: found⟩,
            checksums⟩) := by
    refine .frame hPos hPlain hPacked hPlainSums hPackedSums ?_
      hMoved
    rw [hRest, hBody, hBehind]
  rwa [(middle.seek_spec stop).2.2] at hFrame

/- Behind the length of a block. -/
theorem skips_of_length
    {middle : Source}
    {n : Nat}
    (hFault : source.fault = none)
    (hRest : source.rest = Frame.length (n + 1) ++ middle.rest)
    (hAhead : source.Ahead middle 4)
    (hRun :
      (do
        let packed ← Reading.frameLength
        if maxBlockSize < n + 1 ∨ n + 1 < packed then
          throw (.corruptFrame
            (.lengthsAt (source.position - start) (n + 1) packed))
        let sums :=
          Frame.sumCount checksums (packed = n + 1)
        let next :=
          source.position + Frame.headerSize + 4 * sums + packed
        if source.size < next then
          throw (.truncated .frameExtent)
        Reading.seek next
        return some
          ⟨⟨next, (source.position - start) :: found⟩,
            checksums⟩ : Reading (Option MemberCursor)).perform
          middle =
        (.ok result, next)) :
    Skips start found checksums source next result := by
  rcases Step.ok_of_perform_bind hRun with
    ⟨packed, behind, hLength, hRun₁⟩
  rcases yields_number _ 4 middle behind packed
    (hAhead.fault.trans hFault) hLength with
    ⟨_, ⟨rfl, _⟩, hRest₁, hAhead₁⟩
  rcases Step.ok_of_perform_unless hRun₁ with ⟨hSizes, hRun₂⟩
  rcases Step.ok_of_perform_unless hRun₂ with ⟨hExtent, hRun₃⟩
  rcases Step.ok_of_perform_bind hRun₃ with
    ⟨⟨⟩, _, hSeek, hPure⟩
  cases hSeek
  cases hPure
  rw [not_or, Nat.not_lt, Nat.not_lt] at hSizes
  rw [Nat.not_lt] at hExtent
  have hAll : source.Ahead behind 8 := by
    simpa using hAhead.trans hAhead₁
  have hHeader : Frame.headerSize = 8 := rfl
  have hPos : 0 < n + 1 := Nat.succ_pos n
  apply skips_of_extent hPos hSizes.1 hSizes.2 _ hAll (by omega)
    hExtent
  rw [hRest, hRest₁]
  rfl

/- A round that succeeds has moved over what it has found. -/
theorem skips_of_containerRound
    (hFault : source.fault = none)
    (hRound :
      (containerRound start source.size
          ⟨⟨source.position, found⟩, checksums⟩).perform source =
        (.ok result, next)) :
    Skips start found checksums source next result := by
  rw [containerRound] at hRound
  rcases Step.ok_of_perform_bind hRound with
    ⟨word, middle, hStart, hRun⟩
  rcases yields_frameStart source middle word hFault hStart with
    ⟨bs, hWord, hRest, hAhead⟩
  rcases word with _ | _ | n
  · cases hRun
  · rcases hWord 0 rfl with ⟨rfl, _⟩
    exact skips_of_terminator hFault hRest hAhead hRun
  · rcases hWord (n + 1) rfl with ⟨rfl, _⟩
    exact skips_of_length hFault hRest hAhead hRun

/-
  A round that goes on leaves the source where it keeps track
  of it, nearer to the end.
-/
theorem Skips.movesOn
    {cursor : MemberCursor}
    (h : Skips start found checksums source next (some cursor)) :
    MovesOn source cursor.position next := by
  have hLength := source.remaining_eq
  unfold Source.remaining at hLength
  cases h with
  | @member fields _ hRest hAhead =>
    have hPosition := hAhead.position
    rw [hRest] at hLength
    simp only [List.length_append, Frame.length,
      Bytes.length_bigEndian] at hLength
    exact
      ⟨rfl, by omega, by omega, hAhead.size, hAhead.fault⟩
  | @frame _ _ _ _ _ _ _ _ _ hRest hAhead =>
    have hPosition := hAhead.position
    rw [hRest] at hLength
    simp only [List.length_append, Frame.length,
      Bytes.length_bigEndian] at hLength
    exact
      ⟨rfl, by omega, by omega, hAhead.size, hAhead.fault⟩

end Scan

end SplitStream
