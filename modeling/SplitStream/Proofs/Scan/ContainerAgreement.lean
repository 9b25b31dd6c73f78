import SplitStream.Proofs.Reader.Acceptance
import SplitStream.Proofs.Reader.Tolerance
import SplitStream.Proofs.Scan.Rounds

/-
  Scans and readers of containers. A scan finds the frames
  that a reader walks over; and where a scan succeeds, only
  methods, codecs and checksums can stop a reader.

  Main declarations:
    * `ContainerReader.Reads`
    * `ContainerReader.runs_round`
    * `ContainerReader.walk_of_rounds`
    * `Scan.finds_of_reads`
    * `Scan.tolerated_of_container`
    * `Scan.tracks_container`
-/

------------------------------------------------------------
-- Whole Runs Of Readers
------------------------------------------------------------

namespace SplitStream

namespace ContainerReader

open FrameReader Reading Segment

/-
  A reader that follows members is opened at the position of
  a source: either that fails, or it walks over frames.
-/
inductive Reads
    (codec : Codec)
    (source : Source) :
    List (Nat × Bytes) → Option Error → Prop where
  | refused {next : Source} {e : Error} :
      (start codec).perform source = (.error e, next) →
        Reads codec source [] (some e)
  | opened {next : Source} {reader : ContainerReader}
      {found : List (Nat × Bytes)} {failure : Option Error} :
      (start codec).perform source = (.ok reader, next) →
        Traverses round (reader.follow true) found failure →
          Reads codec source found failure

variable {codec : Codec} {source : Source}

/- Every reader comes to an end or to a failure. -/
theorem exists_reads
    (codec : Codec)
    (hFault : source.fault = none) :
    ∃ found failure, Reads codec source found failure := by
  rcases hStart : (start codec).perform source with
    ⟨e | reader, next⟩
  · exact ⟨[], some e, .refused hStart⟩
  · rcases header_of_start hFault hStart with
      ⟨fields, _, _, _, hAhead, hReader⟩
    have hReady :=
      ready_standing fields codec (hAhead.fault.trans hFault)
    rcases exists_walk _ _ hReady (Nat.lt_succ_self _) with
      ⟨found, failure, hTraverses⟩
    refine ⟨found, failure, .opened hStart ?_⟩
    rw [hReader]
    exact hTraverses

/- A reader walks over the frames of what it delivers. -/
theorem reads_of_delivers
    {reader : ContainerReader}
    {next : Source}
    {blocks : List Bytes}
    {failure : Option Error}
    (hStart : (start codec).perform source = (.ok reader, next))
    (hReady : (reader.follow true).Ready)
    (hDelivers : Delivers (reader.follow true) blocks failure) :
    ∃ found,
      Reads codec source found failure ∧
      found.map Prod.snd = blocks := by
  rcases (delivers_iff_walks hReady).mp hDelivers with
    ⟨found, hWalks, hBlocks⟩
  rw [← hBlocks] at hDelivers
  exact ⟨found, .opened hStart ⟨hWalks, hDelivers⟩, hBlocks⟩

/- A reader of readable members comes to a clean end. -/
theorem reads_of_complete
    {segments : List Segment}
    {tail : Bytes}
    (hComplete : Complete segments)
    (hReadable :
      ∀ segment ∈ segments, segment.ReadableBy codec)
    (hTail : tail.take 9 ≠ Container.magic)
    (hFault : source.fault = none)
    (hRest : source.rest = layout segments ++ tail) :
    ∃ found,
      Reads codec source found none ∧
      found.map Prod.snd = Segment.blocks segments := by
  rcases delivers_of_complete hComplete hReadable hTail hFault
    hRest with
    ⟨reader, next, hStart, hReady, hDelivers⟩
  exact reads_of_delivers hStart hReady hDelivers

------------------------------------------------------------
-- Rounds Side By Side
------------------------------------------------------------

variable {reader : ContainerReader}

/- A round of a reader has come to where one of a scan has. -/
def Matches
    (next : Source)
    (result : Option Scan.MemberCursor)
    (found : Round)
    (later : ContainerReader) : Prop :=
  match result with
  | none => found = .ended
  | some cursor =>
      found ≠ .ended ∧
        later.source.rest = next.rest ∧
        later.checksums = cursor.checksums

/-
  Where a round of a scan has moved over something, a round
  of a reader does so too, unless a method, a codec or a
  checksum stops it.
-/
theorem runs_round
    {start : Nat}
    {found : List Nat}
    {next : Source}
    {result : Option Scan.MemberCursor}
    (hReady : reader.Ready)
    (hRest : reader.source.rest = source.rest)
    (hSkips :
      Scan.Skips start found reader.checksums source next
        result) :
    round.Runs Tolerated reader (Matches next result) := by
  rw [Step.Runs, perform_round hReady.stage, ← Step.Runs]
  cases hSkips with
  | @last tail hLayout hTail =>
    rw [← hRest] at hLayout
    apply (runs_onSource (consumes_frameStart (n := 0) (by decide))
      hReady.fault hLayout).bind
    rintro _ _ ⟨rfl, s, rfl, hAhead, hMore⟩
    rcases perform_nextMember_of_end
      { reader with source := s, stage := .ended }
      (hAhead.fault.trans hReady.fault) (by rwa [hMore]) with
      ⟨last, hEnd⟩
    have hProceed :=
      perform_proceed { reader with source := s } hReady.follow
    rw [Step.perform_map, hEnd] at hProceed
    exact Step.runs_of_ok hProceed rfl
  | @member fields hRegular hLayout hAhead =>
    rw [← hRest] at hLayout
    apply (runs_onSource (consumes_frameStart (n := 0) (by decide))
      hReady.fault hLayout).bind
    rintro _ _ ⟨rfl, s, rfl, hMoved, hMore⟩
    have hProceed :=
      perform_proceed { reader with source := s } hReady.follow
    rw [Step.Runs, hProceed, ← Step.Runs]
    apply (runs_nextMember hRegular
      (hMoved.fault.trans hReady.fault) hMore).bind
    rintro _ later ⟨rfl, hLater, hChecksums⟩
    exact
      Step.runs_of_ok (Step.perform_pure _ _)
        ⟨by simp, hLater, hChecksums⟩
  | @frame plain plainSums packedSums payload hPos hPlain hLe
      hPlainSums hPackedSums hLayout hAhead =>
    rw [← hRest] at hLayout
    apply (runs_onSource (consumes_frameStart (lt_wordCount hPlain))
      hReady.fault hLayout).bind
    rintro _ _ ⟨rfl, s, rfl, hMoved, hMore⟩
    rcases Nat.exists_eq_succ_of_ne_zero
      (Nat.pos_iff_ne_zero.mp hPos) with ⟨n, rfl⟩
    have hDecode :
        (decodeFrame (n + 1)).Runs Tolerated
          { reader with source := s } _ :=
      runs_decodeFrame hPlain hLe
        (hMoved.fault.trans hReady.fault) hMore hPlainSums
        hPackedSums
    apply hDecode.bind
    rintro ⟨⟩ later ⟨hLater, hChecksums⟩
    exact
      Step.runs_of_ok (Step.perform_pure _ _)
        ⟨by simp, hLater, hChecksums⟩

/-
  Where a loop of a scan comes to its end, a reader walks to
  its end, or is stopped by a tolerated error. The induction
  is on the rounds; both stand before the same bytes.
-/
theorem walk_of_rounds
    (n : Nat)
    (reader : ContainerReader)
    {start : Nat}
    {found : List Nat}
    {last : Scan.MemberCursor}
    {final : Source}
    (hFault : source.fault = none)
    (hRounds :
      (Scan.rounds (Scan.containerRound start source.size) n
          ⟨⟨source.position, found⟩, reader.checksums⟩).perform
          source =
        (.ok last, final))
    (hEnough : source.remaining < n)
    (hReady : reader.Ready)
    (hRest : reader.source.rest = source.rest) :
    ∃ walked failure,
      Walks round reader walked failure ∧
      ∀ e, failure = some e → Tolerated e := by
  induction n generalizing source found reader with
  | zero => exact absurd hEnough (Nat.not_lt_zero _)
  | succ n ih =>
    rw [Scan.rounds] at hRounds
    rcases Step.ok_of_perform_bind hRounds with
      ⟨result, next, hScan, hMore⟩
    have hSkips := Scan.skips_of_containerRound hFault hScan
    have hRuns := runs_round hReady hRest hSkips
    rcases hRound : round.perform reader with
      ⟨e | turn, later⟩
    · refine ⟨[], some e, .failed hRound, ?_⟩
      rintro _ ⟨⟩
      exact hRuns.of_error hRound
    have hMatches := hRuns.of_ok hRound
    rcases result with _ | cursor
    · cases hMatches
      refine ⟨[], none, .ended hRound, ?_⟩
      rintro _ ⟨⟩
    · rcases hMatches with ⟨hTurn, hLater, hChecksums⟩
      rcases hSkips.movesOn with
        ⟨hPosition, hMoved, hInside, hSize, hSame⟩
      have hLess : next.remaining < n := by
        unfold Source.remaining at hEnough ⊢
        omega
      rcases cursor with ⟨⟨position, collected⟩, checksums⟩
      change position = next.position at hPosition
      change later.checksums = checksums at hChecksums
      subst hPosition hChecksums
      rw [← hSize] at hMore
      have hMoves := movesOver_of_round hReady hRound
      have hNext := (hMoves.ready hReady hTurn).1
      rcases turn with _ | _ | _
      · contradiction
      · rcases ih later (hSame.trans hFault) hMore hLess
          hNext hLater with ⟨walked, failure, hWalks, hTolerated⟩
        exact
          ⟨walked, failure, .member hRound hWalks, hTolerated⟩
      · have hCleared : Ready (cleared later) :=
          ⟨hNext.stage, hNext.follow, hNext.fault⟩
        rcases ih (cleared later) (hSame.trans hFault) hMore
          hLess hCleared hLater with ⟨walked, failure, hWalks, hTolerated⟩
        exact ⟨_, failure, .frame hRound hWalks, hTolerated⟩

/- A reader refuses the header of another method. -/
theorem start_of_method
    {fields : Header}
    {opened : Source}
    (hRead :
      Header.read.perform source = (.ok fields, opened))
    (hMethod : fields.method ≠ codec.method) :
    (start codec).perform source =
      (.error (.methodMismatch codec.method fields.method),
        opened) := by
  unfold start
  rw [Step.perform_bind_of_ok hRead,
    Step.perform_bind_of_ok (Step.perform_get opened),
    Step.perform_ofExcept]
  simp only [resume, checkMethod, if_neg hMethod]
  rfl

end ContainerReader

------------------------------------------------------------
-- Agreement
------------------------------------------------------------

namespace Scan

open ContainerReader FrameReader Reading Segment

variable {codec : Codec} {source : Source}

/-
  What a reader finds to a clean end is in the index, at the
  same distance from the start.
-/
theorem finds_of_reads
    {found : List (Nat × Bytes)}
    (hFault : source.fault = none)
    (hReads : ContainerReader.Reads codec source found none) :
    ∃ index next,
      container.perform source = (.ok index, next) ∧
      found.map Prod.fst =
        index.offsets.map (source.position + ·) := by
  cases hReads with
  | @opened next reader found failure hStart hTraverses =>
    rcases header_of_start hFault hStart with
      ⟨fields, hRegular, _, hRest, hAhead, hReader⟩
    rw [hReader] at hTraverses
    have hReady :=
      ready_standing fields codec (hAhead.fault.trans hFault)
    rcases accounts_of_walk hTraverses.walks rfl hReady with
      ⟨segments, tail, h⟩
    have hLayout : next.rest = layout segments ++ tail := h.rest
    have hAll :
        source.rest =
          layout (.header fields :: segments) ++ tail := by
      rw [hRest, hLayout, layout_cons, List.append_assoc]
      rfl
    rcases perform_container (.intro hRegular h.framed) h.stop
      source hFault hAll with ⟨last, hScan⟩
    refine ⟨_, last, hScan, ?_⟩
    have hPositions :
        found.map Prod.fst = offsets next.position segments :=
      h.positions
    rw [hPositions, hAhead.position, offsets_add]
    simp [FrameIndex.ofSegments, offsets, isFrame, encode]

/-
  Where a scan succeeds, a reader ends cleanly or is stopped
  by a tolerated error.
-/
theorem tolerated_of_container
    {index : FrameIndex}
    {next : Source}
    {found : List (Nat × Bytes)}
    {failure : Option Error}
    (hFault : source.fault = none)
    (hScan : container.perform source = (.ok index, next))
    (hReads : ContainerReader.Reads codec source found failure)
    (e : Error)
    (hFailure : failure = some e) :
    ContainerReader.Tolerated e := by
  unfold container at hScan
  rw [Step.perform_bind_of_ok (Step.perform_get source)]
    at hScan
  rcases Step.ok_of_perform_bind hScan with
    ⟨fields, opened, hRead, hRun⟩
  rcases Header.yields_read source opened fields hFault hRead with
    ⟨_, ⟨rfl, hRegular⟩, hRest, hAhead⟩
  rcases Step.ok_of_perform_bind hRun with
    ⟨last, final, hRounds, _⟩
  by_cases hMethod : fields.method = codec.method
  · rcases start_of_header hRegular hMethod hFault hRest with
      ⟨reader, again, hStart, hMoved, hReader⟩
    have hReady :=
      ready_standing fields codec (hMoved.fault.trans hFault)
    rw [← Header.length_encode, ← hAhead.position, ← hAhead.size]
      at hRounds
    have hEnough : opened.remaining < source.remaining + 1 := by
      rw [Source.remaining, hAhead.size, hAhead.position,
        Source.remaining]
      omega
    rcases walk_of_rounds _ (standing again fields codec)
      (hAhead.fault.trans hFault) hRounds hEnough hReady
      (hMoved.rest.trans hAhead.rest.symm) with
      ⟨walked, other, hWalks, hTolerated⟩
    cases hReads with
    | refused hRefused =>
      rw [hStart] at hRefused
      cases hRefused
    | opened hOpened hTraverses =>
      rw [hStart] at hOpened
      cases hOpened
      rw [hReader] at hTraverses
      rcases hTraverses.walks.unique hWalks with ⟨_, rfl⟩
      exact hTolerated e hFailure
  · have hStart := start_of_method hRead hMethod
    cases hReads with
    | refused hRefused =>
      rw [hStart] at hRefused
      cases hRefused
      cases hFailure
      exact .method _ _
    | opened hOpened _ =>
      rw [hStart] at hOpened
      cases hOpened

/- The loop of a container's scan comes to a cursor. -/
def VisitsContainer
    (source : Source)
    (cursor : MemberCursor)
    (current : Source) : Prop :=
  ∃ fields opened,
    Header.read.perform source = (.ok fields, opened) ∧
    Goes (containerRound source.position source.size)
      ⟨⟨source.position + fields.encodedLength, []⟩,
        .ofFlags fields.flags⟩
      opened cursor current

/-
  Wherever the loop of a scan comes, the position it keeps
  track of is that of the source, inside the stream.
-/
theorem tracks_container
    {current : Source}
    {cursor : MemberCursor}
    (hFault : source.fault = none)
    (hVisits : VisitsContainer source cursor current) :
    Tracks source cursor.position current := by
  rcases hVisits with ⟨fields, opened, hRead, hGoes⟩
  rcases Header.yields_read source opened fields hFault hRead with
    ⟨_, ⟨rfl, _⟩, hRest, hAhead⟩
  have hSome := length_encode_pos (.header fields)
  have hInside := Source.position_add_le hRest hSome
  have hFirst :
      Tracks source (source.position + fields.encodedLength)
        opened :=
    { position := by
        rw [hAhead.position, Header.length_encode]
      start_le := by
        rw [hAhead.position]
        omega
      inside := by
        rw [hAhead.position]
        exact hInside
      size := hAhead.size
      fault := hAhead.fault }
  apply hGoes.keeps _ hFirst
  rintro ⟨⟨position, found⟩, checksums⟩ current next later h
    hRound
  have hPosition : position = current.position := h.position
  rw [hPosition, ← h.size] at hRound
  exact
    h.movesOn
      (skips_of_containerRound (h.fault.trans hFault)
        hRound).movesOn

/- So it is behind a terminator, where the scan looks ahead. -/
theorem tracks_terminator
    {position : Nat}
    {current next : Source}
    (hFault : source.fault = none)
    (hTracks : Tracks source position current)
    (hStart :
      frameStart.perform current = (.ok (some 0), next)) :
    Tracks source (position + 4) next := by
  rcases yields_frameStart current next (some 0)
    (hTracks.fault.trans hFault) hStart with
    ⟨bs, hWord, hRest, hAhead⟩
  rcases hWord 0 rfl with ⟨rfl, _⟩
  apply hTracks.movesOn
  exact
    { position := by
        rw [hAhead.position, hTracks.position]
        rfl
      ahead := by
        rw [hAhead.position]
        exact Nat.lt_add_of_pos_right (by decide)
      inside := by
        rw [hAhead.position]
        exact Source.position_add_le hRest (by decide)
      size := hAhead.size
      fault := hAhead.fault }

end Scan

end SplitStream
