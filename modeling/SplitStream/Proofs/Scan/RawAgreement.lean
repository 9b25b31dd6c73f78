import SplitStream.Proofs.Raw.Walking
import SplitStream.Proofs.Scan.RawRounds

/-
  Scans and readers of raw streams. A scan finds the frames
  that a reader walks over; and where a scan succeeds, only
  the codec and the bound on payloads can stop a reader.

  Main declarations:
    * `RawReader.Reads`
    * `RawReader.walk_of_rounds`
    * `Scan.finds_of_rawReads`
    * `Scan.tolerated_of_raw`
    * `Scan.tracks_raw`
-/

------------------------------------------------------------
-- Rounds Side By Side
------------------------------------------------------------

namespace SplitStream

namespace RawReader

open FrameReader Reading

/-
  A reader of raw streams is opened at the position of a
  source and walks over frames.
-/
def Reads
    (codec : Codec)
    (source : Source)
    (found : List (Nat × Bytes))
    (failure : Option Error) : Prop :=
  Traverses round (new source codec) found failure

variable {codec : Codec} {source : Source} {reader : RawReader}

theorem exists_reads
    (codec : Codec)
    (hFault : source.fault = none) :
    ∃ found failure, Reads codec source found failure :=
  exists_walk _ (new source codec) hFault (Nat.lt_succ_self _)

/-
  Where a round of a scan has moved over a frame, a reader
  decodes it, unless its codec or its bound stops it.
-/
theorem runs_of_rawSkips
    {start : Nat}
    {found : List Nat}
    {next : Source}
    {result : Option Scan.Cursor}
    (hFault : reader.source.fault = none)
    (hRest : reader.source.rest = source.rest)
    (hSkips : Scan.RawSkips start found source next result) :
    readFrame.Runs (Tolerated reader.codec) reader
      fun more later =>
        more = result.isSome ∧
          (more = true →
            later.source.rest = next.rest ∧
              later.codec = reader.codec) := by
  cases hSkips with
  | last hEnd =>
    rcases perform_readFrame_of_end reader hFault
      (hRest.trans hEnd) with ⟨later, hRead, _⟩
    exact Step.runs_of_ok hRead ⟨rfl, by simp⟩
  | frame hPlain hSmall hLayout _ =>
    apply (runs_readFrame hPlain hSmall hFault
      (hRest.trans hLayout)).mono
    rintro _ later ⟨rfl, hLater, hCodec⟩
    exact ⟨rfl, fun _ => ⟨hLater, hCodec⟩⟩

/-
  Where a loop of a scan comes to its end, a reader walks to
  its end, or is stopped by a tolerated error. The induction
  is on the rounds; both stand before the same bytes.
-/
theorem walk_of_rounds
    (n : Nat)
    (reader : RawReader)
    {start : Nat}
    {found : List Nat}
    {last : Scan.Cursor}
    {final : Source}
    (hFault : source.fault = none)
    (hRounds :
      (Scan.rounds (Scan.rawRound start source.size) n
          ⟨source.position, found⟩).perform source =
        (.ok last, final))
    (hEnough : source.remaining < n)
    (hReader : reader.source.fault = none)
    (hRest : reader.source.rest = source.rest) :
    ∃ walked failure,
      Walks round reader walked failure ∧
      ∀ e, failure = some e → Tolerated reader.codec e := by
  induction n generalizing source found reader with
  | zero => exact absurd hEnough (Nat.not_lt_zero _)
  | succ n ih =>
    rw [Scan.rounds] at hRounds
    rcases Step.ok_of_perform_bind hRounds with
      ⟨result, next, hScan, hMore⟩
    have hSkips := Scan.rawSkips_of_rawRound hFault hScan
    have hRuns := runs_of_rawSkips hReader hRest hSkips
    rcases hRead : readFrame.perform reader with
      ⟨e | more, later⟩
    · refine ⟨[], some e, .failed (perform_round hRead), ?_⟩
      rintro _ ⟨⟩
      exact hRuns.of_error hRead
    rcases hRuns.of_ok hRead with ⟨hSome, hLater⟩
    rcases result with _ | cursor
    · cases hSome
      refine ⟨[], none, .ended (perform_round hRead), ?_⟩
      rintro _ ⟨⟩
    · cases hSome
      rcases hLater rfl with ⟨hBytes, hCodec⟩
      rcases hSkips.movesOn with
        ⟨hPosition, hMoved, hInside, hSize, hSame⟩
      have hLess : next.remaining < n := by
        unfold Source.remaining at hEnough ⊢
        omega
      rcases cursor with ⟨position, collected⟩
      change position = next.position at hPosition
      subst hPosition
      rw [← hSize] at hMore
      have hMoves := movesOver_of_readFrame hReader hRead
      rcases ih (cleared later) (hSame.trans hFault) hMore hLess
        (hMoves.fault.trans hReader) hBytes with
        ⟨walked, failure, hWalks, hTolerated⟩
      refine
        ⟨_, failure, .frame (perform_round hRead) hWalks, ?_⟩
      intro e hFailure
      rw [← hCodec]
      exact hTolerated e hFailure

end RawReader

------------------------------------------------------------
-- Agreement
------------------------------------------------------------

namespace Scan

open RawReader

variable {codec : Codec} {source : Source}

/-
  What a reader finds to a clean end is in the index, at the
  same distance from the start.
-/
theorem finds_of_rawReads
    {found : List (Nat × Bytes)}
    (hFault : source.fault = none)
    (hReads : RawReader.Reads codec source found none) :
    ∃ index next,
      raw.perform source = (.ok index, next) ∧
      found.map Prod.fst =
        index.offsets.map (source.position + ·) := by
  rcases contents_of_walk hReads.walks rfl hFault with
    ⟨contents, hFits, hRest, hPositions, _⟩
  rcases perform_raw hFits source hFault hRest with
    ⟨last, hScan⟩
  refine ⟨_, last, hScan, ?_⟩
  have hOffsets :=
    RawStream.offsets_add source.position 0 contents
  exact hPositions.trans hOffsets

/-
  Where a scan succeeds, a reader ends cleanly or is stopped
  by a tolerated error.
-/
theorem tolerated_of_raw
    {index : FrameIndex}
    {next : Source}
    {found : List (Nat × Bytes)}
    {failure : Option Error}
    (hFault : source.fault = none)
    (hScan : raw.perform source = (.ok index, next))
    (hReads : RawReader.Reads codec source found failure)
    (e : Error)
    (hFailure : failure = some e) :
    RawReader.Tolerated codec e := by
  unfold raw at hScan
  rw [Step.perform_bind_of_ok (Step.perform_get source)]
    at hScan
  rcases Step.ok_of_perform_bind hScan with
    ⟨last, final, hRounds, _⟩
  rcases walk_of_rounds _ (.new source codec) hFault hRounds
    (Nat.lt_succ_self _) hFault rfl with
    ⟨walked, other, hWalks, hTolerated⟩
  rcases hReads.walks.unique hWalks with ⟨_, rfl⟩
  exact hTolerated e hFailure

/- The loop of a raw stream's scan comes to a cursor. -/
def VisitsRaw
    (source : Source)
    (cursor : Cursor)
    (current : Source) : Prop :=
  Goes (rawRound source.position source.size)
    ⟨source.position, []⟩ source cursor current

/-
  Wherever the loop of a scan comes, the position it keeps
  track of is that of the source, inside the stream.
-/
theorem tracks_raw
    {current : Source}
    {cursor : Cursor}
    (hFault : source.fault = none)
    (hInside : source.position ≤ source.size)
    (hVisits : VisitsRaw source cursor current) :
    Tracks source cursor.position current := by
  have hFirst : Tracks source source.position source :=
    ⟨rfl, Nat.le_refl _, hInside, rfl, rfl⟩
  apply Goes.keeps hVisits _ hFirst
  rintro ⟨position, found⟩ current next later h hRound
  have hPosition : position = current.position := h.position
  rw [hPosition, ← h.size] at hRound
  exact
    h.movesOn
      (rawSkips_of_rawRound (h.fault.trans hFault)
        hRound).movesOn

end Scan

end SplitStream
