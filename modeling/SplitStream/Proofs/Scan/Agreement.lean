import SplitStream.Proofs.Scan.ContainerAgreement
import SplitStream.Proofs.Scan.RawAgreement

/-
  Agreement of scans and readers. A reader comes to a clean
  end only where a scan does, over the frames that the scan
  finds; and behind a scan that succeeds nothing is wrong
  with the structure of the stream.

  Main declarations:
    * `Scan.Agrees`
    * `Scan.agrees_with_readers`
-/

------------------------------------------------------------
-- Scans And Readers
------------------------------------------------------------

namespace SplitStream

namespace Scan

open FrameReader Reading

/-
  A scan agrees with a reader of the same source. The reader
  always comes to some end. If that is a clean end, the scan
  finds its frames, at positions that count from the start;
  and if the scan succeeds, the reader can only be stopped by
  an error that is tolerated.
-/
structure Agrees
    (source : Source)
    (scan : Reading FrameIndex)
    (Reads : List (Nat × Bytes) → Option Error → Prop)
    (Tolerated : Error → Prop) : Prop where
  ends : ∃ found failure, Reads found failure
  finds :
    ∀ found,
      Reads found none →
        ∃ index next,
          scan.perform source = (.ok index, next) ∧
          found.map Prod.fst =
            index.offsets.map (source.position + ·)
  tolerates :
    ∀ index next found e,
      scan.perform source = (.ok index, next) →
        Reads found (some e) →
          Tolerated e

/-
  From every position of a source that does not fail, scans
  and readers of both framings agree, and wherever a scan
  comes it knows the position of the source, also behind a
  terminator.
-/
theorem agrees_with_readers
    (codec : Codec)
    (source : Source)
    (hFault : source.fault = none)
    (hInside : source.position ≤ source.size) :
    Agrees source container (ContainerReader.Reads codec source)
        ContainerReader.Tolerated ∧
      Agrees source raw (RawReader.Reads codec source)
        (RawReader.Tolerated codec) ∧
      (∀ cursor current,
        VisitsContainer source cursor current →
          Tracks source cursor.position current ∧
            ∀ next,
              frameStart.perform current = (.ok (some 0), next) →
                Tracks source (cursor.position + 4) next) ∧
      ∀ cursor current,
        VisitsRaw source cursor current →
          Tracks source cursor.position current := by
  refine ⟨?_, ?_, ?_, ?_⟩
  · exact
      { ends := ContainerReader.exists_reads codec hFault
        finds := fun _ hReads => finds_of_reads hFault hReads
        tolerates := fun _ _ _ e hScan hReads =>
          tolerated_of_container hFault hScan hReads e rfl }
  · exact
      { ends := RawReader.exists_reads codec hFault
        finds := fun _ hReads => finds_of_rawReads hFault hReads
        tolerates := fun _ _ _ e hScan hReads =>
          tolerated_of_raw hFault hScan hReads e rfl }
  · intro cursor current hVisits
    have hTracks := tracks_container hFault hVisits
    exact
      ⟨hTracks, fun next hStart =>
        tracks_terminator hFault hTracks hStart⟩
  · intro cursor current hVisits
    exact tracks_raw hFault hInside hVisits

/- Behind one byte, a reader comes to the end of two members. -/
theorem agrees_with_readers_behind_byte :
    let source :=
      Source.atPosition (0 :: ContainerReader.pairBytes) 1 none
        .prompt
    source.fault = none ∧
      source.position ≤ source.size ∧
      ∃ found index next,
        ContainerReader.Reads .runLength source found none ∧
        found.map Prod.snd = [[7, 7, 7, 7], [1, 2]] ∧
        container.perform source = (.ok index, next) ∧
        found.map Prod.fst = index.offsets.map (1 + ·) := by
  intro source
  have hInside : source.position ≤ source.size := by
    decide +kernel
  have hRest :
      source.rest =
        Segment.layout ContainerReader.pairSegments ++ [137] := by
    decide +kernel
  rcases ContainerReader.reads_of_complete
    ContainerReader.complete_pairSegments
    ContainerReader.readable_pairSegments (by decide) rfl hRest
    with ⟨found, hReads, hData⟩
  rcases (agrees_with_readers .runLength source rfl
    hInside).1.finds found hReads with
    ⟨index, next, hScan, hFound⟩
  exact
    ⟨rfl, hInside, found, index, next, hReads, hData, hScan,
      hFound⟩

end Scan

end SplitStream
