import SplitStream.Proofs.Codec.Standard
import SplitStream.Proofs.Command.Compression
import SplitStream.Proofs.Command.Finding
import SplitStream.Proofs.Command.Intakes
import SplitStream.Proofs.Scan.RawRounds
import SplitStream.Proofs.Storage.Soundness

/-
  The indexes that compressions leave. They are the indexes
  of the files that were written, unless an index of an
  earlier file was in the way of a raw stream and was not
  removed.

  Main declarations:
    * `CompressRequest.ownIndex_of_run`
    * `CompressRequest.fails_run_of_invalidSize`
    * `CompressRequest.not_agrees_of_stale`
    * `CompressRequest.not_agrees_of_invalidSize`
    * `CompressRequest.not_agrees_of_legacy`
-/

namespace SplitStream

open IndexFile

------------------------------------------------------------
-- After A Compression
------------------------------------------------------------

namespace CompressRequest

/-
  Whatever was there before, a compression leaves an index
  that is the file's own or none, unless it has failed before
  it has changed anything. No file may stand under the older
  name of the index; and for a raw stream, where an index of
  an earlier file is in the way, the block size must be valid
  and the removal of the index must not fail.

  The engines ask for no more room than their formats need,
  the tree does not take a file that is there for an absent
  one, and no file is longer than a position can tell.
-/
theorem ownIndex_of_run
    [engines : Engines]
    (hEngines : engines.Measured)
    {request : CompressRequest}
    {session after : Session}
    {result : Except Failure Unit}
    (hSound : session.files.Sound)
    (hFaults :
      ∀ step, session.files.faults step ≠ some .notFound)
    (hLegacy :
      session.files.nodeAt? (legacyPathFor request.output) =
        none)
    (hRemoved :
      request.raw = true →
      session.files.nodeAt? request.indexPath ≠ none →
        (0 < request.blockSize ∧
            request.blockSize ≤ maxBlockSize) ∧
          ∀ cause,
            result ≠
              .error
                (.during (.removingIndex request.indexPath)
                  cause))
    (hLength :
      ∀ number,
        (after.files.bytesOf number).length ≤
          FileSystem.positionLimit)
    (hRun : request.run.perform session = (result, after)) :
    (∃ failure,
        result = .error failure ∧
          session.files.Intact after.files) ∨
      ∀ later : Session,
        after.files.Intact later.files →
          Agrees request.output later.files ∧
            Command.FindsOwn request.output later := by
  have hEnds :=
    request.ends_run hEngines hSound hFaults hLegacy
  have hOwn :
      Tidy request.output after.files →
        ∀ later : Session,
          after.files.Intact later.files →
            Agrees request.output later.files ∧
              Command.FindsOwn request.output later := by
    intro hTidy later hIntact
    have hAgrees :
        ∀ fs,
          after.files.Intact fs → Agrees request.output fs := by
      intro fs hSame
      apply (hTidy.intact hSame).agrees
      intro number
      rw [hSame.bytesOf_eq]
      exact hLength number
    exact
      ⟨hAgrees later.files hIntact,
        Command.findsOwn_of_agrees fun fs hSame =>
          hAgrees fs (hIntact.trans hSame)⟩
  cases result with
  | ok _ =>
    right
    exact hOwn (hEnds.of_ok hRun)
  | error failure =>
    rcases hEnds.of_error hRun with
      hTidy | hIntact | ⟨hRaw, hNode, hReason⟩
    · right
      exact hOwn hTidy
    · left
      exact ⟨failure, rfl, hIntact⟩
    · rcases hRemoved hRaw hNode with ⟨hSize, hCause⟩
      rcases hReason with hInvalid | ⟨cause, hFailure⟩
      · contradiction
      · rw [hFailure] at hCause
        exact absurd rfl (hCause cause)

/- The index of a stream with one frame at its beginning. -/
def oneFrame : FrameIndex :=
  ⟨[0], by simp⟩

theorem ofBytes_oneFrame :
    FrameIndex.ofBytes oneFrame.toBytes = .ok oneFrame :=
  rfl

/- A raw stream of one frame, and its index under a name. -/
def earlierFiles
    (indexName : String) : FileSystem :=
  (FileSystem.putFile indexName oneFrame.toBytes).final
    ((FileSystem.putFile "o" [0, 0, 0, 1, 0, 0, 0, 1, 7]).final
      .empty)

theorem sound_earlierFiles
    (indexName : String) :
    (earlierFiles indexName).Sound :=
  ((FileSystem.Built.empty.putFile _ _).putFile _ _).sound

/- A raw stream of nothing, written over the earlier one. -/
def overEarlier
    (blockSize : Nat)
    (index : Bool) : CompressRequest where
  input := "-"
  output := "o"
  codec := .stored
  level := none
  blockSize := blockSize
  raw := true
  index := index
  checksums := none

/- Files are as short as the longest one in the table. -/
theorem length_bytesOf_le
    {fs : FileSystem}
    {limit : Nat}
    (hFiles :
      ∀ entry ∈ fs.files.entries,
        entry.2.toBytes.length ≤ limit)
    (number : Nat) :
    (fs.bytesOf number).length ≤ limit := by
  unfold FileSystem.bytesOf
  cases hTape : fs.files.get? number with
  | none => exact Nat.zero_le _
  | some tape =>
    exact hFiles _ (Table.mem_of_find? hTape)

theorem ownIndex_of_run_over_earlier :
    ((overEarlier 1 true).run.perform
          (.start (earlierFiles "o.idx") 0 [])).1.isOk =
        true ∧
      ∀ later : Session,
        ((overEarlier 1 true).run.perform
            (.start (earlierFiles "o.idx") 0 [])).2.files.Intact
          later.files →
          Agrees "o" later.files ∧
            Command.FindsOwn "o" later := by
  let session : Session := .start (earlierFiles "o.idx") 0 []
  have hDone :
      ((overEarlier 1 true).run.perform session).1.isOk = true := by
    decide +kernel
  have hFiles :
      ∀ entry ∈
        ((overEarlier 1 true).run.perform session).2.files.files.entries,
          entry.2.toBytes.length ≤ FileSystem.positionLimit := by
    decide +kernel
  have hLegacy :
      session.files.nodeAt? (legacyPathFor "o") = none := by
    decide +kernel
  refine ⟨hDone, ?_⟩
  rcases hRun : (overEarlier 1 true).run.perform session with
    ⟨result, after⟩
  rw [hRun] at hDone hFiles
  have hFaults :
      ∀ step, session.files.faults step ≠ some .notFound := by
    intro step
    show none ≠ _
    simp
  have hRemoved :
      (overEarlier 1 true).raw = true →
        session.files.nodeAt? (overEarlier 1 true).indexPath ≠ none →
          (0 < (overEarlier 1 true).blockSize ∧
              (overEarlier 1 true).blockSize ≤ maxBlockSize) ∧
            ∀ cause,
              result ≠
                .error
                  (.during
                    (.removingIndex (overEarlier 1 true).indexPath)
                    cause) := by
    intro _ _
    refine ⟨by decide, ?_⟩
    intro cause hFailed
    rw [hFailed] at hDone
    cases hDone
  have hOwn :=
    @ownIndex_of_run _ Engines.standard_sound.toMeasured
      (overEarlier 1 true) session after result
      (sound_earlierFiles "o.idx") hFaults hLegacy hRemoved
      (length_bytesOf_le hFiles) hRun
  rcases hOwn with ⟨failure, hFailed, _⟩ | hOwn
  · rw [hFailed] at hDone
    cases hDone
  · exact hOwn

/- A writer refuses an invalid block size. -/
theorem perform_new_of_invalidSize
    [Engines]
    {request : CompressRequest}
    (hSize :
      ¬ (0 < request.blockSize ∧
          request.blockSize ≤ maxBlockSize))
    (data : OutputStream)
    (session : Session) :
    (Command.library
        (ofExcept
          (RawWriter.new data.channel
            (request.codec.codec request.level)
            request.blockSize))).perform session =
      (.error
        (.library (.misuse (.blockSize request.blockSize))),
        session) := by
  have hNew :
      RawWriter.new data.channel
          (request.codec.codec request.level)
          request.blockSize =
        .error (.misuse (.blockSize request.blockSize)) := by
    simp [RawWriter.new, Regrouper.new, hSize, bind, Except.bind]
  rw [hNew]
  rfl

/-
  Nothing keeps the files of a request from being opened: the
  input is there, and the output can be a file.
-/
structure Opens
    (request : CompressRequest)
    (session : Session) : Prop where
  sound : session.files.Sound
  calm : session.files.Calm
  supplied :
    ∃ data, session.Supplies request.input [] data
  admits : session.files.Admits request.output

/-
  A request was refused for its block size. The output is
  empty, and no other file is altered.
-/
structure Refused
    (request : CompressRequest)
    (session : Session)
    (failure : Failure)
    (after : Session) : Prop where
  failure_eq :
    failure = .library (.misuse (.blockSize request.blockSize))
  empty : after.files.HasFile request.output []
  alters :
    session.files.Alters [request.output] after.files

/-
  A raw stream with an invalid block size is refused when its
  file has been emptied already.
-/
theorem fails_run_of_invalidSize
    [Engines]
    {request : CompressRequest}
    {session : Session}
    (hOpens : request.Opens session)
    (hRaw : request.raw = true)
    (hSize :
      ¬ (0 < request.blockSize ∧
          request.blockSize ≤ maxBlockSize)) :
    request.run.Ends session
      (fun _ _ => False) (request.Refused session) := by
  rcases hOpens.supplied with ⟨_, hSupplies⟩
  refine
    Step.Succeeds.followed
      (Intake.succeeds_fromPath hOpens.sound hOpens.calm
        hSupplies) ?_
  rintro intake start ⟨_, hCounts⟩
  rw [if_pos hRaw]
  have hSame := hCounts.files.sameNames
  have hCreate :=
    OutputStream.succeeds_create (hSame.sound hOpens.sound)
      (hCounts.files.calm hOpens.calm)
      (hSame.sameDirectories.admits hOpens.admits)
  have hWrite :
      (request.writeRaw intake).Ends start
        (fun _ _ => False) (request.Refused session) := by
    refine
      Step.Succeeds.followed
        (Command.succeeds_during
          (Command.succeeds_onFiles hCreate .device) _) ?_
    rintro data opened ⟨_, hFeeds, hAlters⟩
    have hRefused := perform_new_of_invalidSize hSize data opened
    refine
      (Step.ends_of_error (Step.perform_bind_of_error hRefused)
        ⟨rfl, rfl⟩ :
        Step.Ends _ opened
          (fun _ _ => False)
          (fun failure after =>
            failure =
                .library
                  (.misuse (.blockSize request.blockSize)) ∧
              opened = after)).ensuring
        (fun _ _ hDone => hDone) ?_
    rintro failure _ ⟨hFailure, rfl⟩
    rcases hFeeds.discard with ⟨hEmpty, hMore⟩
    exact
      { failure_eq := hFailure
        empty := hEmpty
        alters :=
          (hCounts.files.alters _).trans (hAlters.trans hMore) }
  exact hWrite.bind (by simp)

/- An empty file has no frames that an index could tell of. -/
theorem not_agrees_of_empty
    {fs fs' : FileSystem}
    {file : String}
    {number : Nat}
    {index : FrameIndex}
    (hNode : fs.nodeAt? file = some (.file number))
    (hEmpty : fs.bytesOf number = [])
    (hLoad : (load file).perform fs = (.ok (some index), fs'))
    (hSome : index ≠ .empty) :
    ¬ Agrees file fs := by
  intro hAgrees
  rcases hAgrees.of_ok hLoad index rfl with
    ⟨other, rest, hOther, hScan⟩
  rw [hNode] at hOther
  cases hOther
  rcases Scan.perform_stream_of_nil with ⟨next, hNone⟩
  rw [hEmpty, hNone] at hScan
  cases hScan
  exact hSome rfl

/-
  An index with frames that stands beside the output of such a
  request is loaded for the empty file.
-/
theorem not_agrees_of_stale
    [Engines]
    {request : CompressRequest}
    {session : Session}
    {stored : Bytes}
    {index : FrameIndex}
    (hOpens : request.Opens session)
    (hRaw : request.raw = true)
    (hSize :
      ¬ (0 < request.blockSize ∧
          request.blockSize ≤ maxBlockSize))
    (hStored : session.files.HasFile request.indexPath stored)
    (hParse : FrameIndex.ofBytes stored = .ok index)
    (hSome : index ≠ .empty) :
    ¬ Agrees request.output
        (request.run.final session).files := by
  have hEnds := fails_run_of_invalidSize hOpens hRaw hSize
  have hAvoids :
      session.files.Avoids request.indexPath
        [request.output] := by
    rcases hOpens.admits with ⟨place, hPlace, hFile, _⟩
    intro name hName
    rw [List.mem_singleton.mp hName]
    exact
      (FileSystem.apart_append hPlace hFile suffix_index).symm
  unfold Step.final
  rcases hRun : request.run.perform session with
    ⟨failure | _, after⟩
  · have hRefused := hEnds.of_error hRun
    have hLoads :=
      succeeds_load_of_hasFile
        (hRefused.alters.calm hOpens.calm)
        (hRefused.alters.hasFile hStored hAvoids) hParse
    rcases hLoads.exists_ok with ⟨_, rest, hLoad, rfl, _⟩
    rcases hRefused.empty with ⟨number, hFile, hEmpty⟩
    exact
      not_agrees_of_empty hFile.nodeAt?_eq hEmpty hLoad hSome
  · exact (hEnds.of_ok hRun).elim

/-
  The output is empty and has no frames, but the index that
  is loaded for it has the frame of the earlier output.
-/
theorem not_agrees_of_invalidSize :
    ¬ Agrees "o"
        ((overEarlier 0 true).run.final
          (.start (earlierFiles "o.idx") 0 [])).files := by
  have hOpens :
      (overEarlier 0 true).Opens
        (.start (earlierFiles "o.idx") 0 []) :=
    { sound := sound_earlierFiles "o.idx"
      calm := fun _ => rfl
      supplied := ⟨[], rfl⟩
      admits := by decide +kernel }
  have hStored :
      (earlierFiles "o.idx").HasFile
        (overEarlier 0 true).indexPath oneFrame.toBytes :=
    ⟨1, by decide +kernel, by decide +kernel⟩
  have hStale :=
    not_agrees_of_stale hOpens rfl (by decide) hStored
      ofBytes_oneFrame (by decide)
  exact hStale

/-
  Nothing removes an index with the older name. It is loaded
  for an output that is written without an index.
-/
theorem not_agrees_of_legacy :
    ¬ Agrees "o"
        ((overEarlier 1 false).run.final
          (.start (earlierFiles "o.index") 0 [])).files := by
  let after : FileSystem :=
    ((overEarlier 1 false).run.final
      (.start (earlierFiles "o.index") 0 [])).files
  have hNode : after.nodeAt? "o" = some (.file 0) := by
    decide +kernel
  have hEmpty : after.bytesOf 0 = [] := by
    decide +kernel
  have hNone :
      ((openIfPresent (pathFor "o")).perform
          after).1.toOption =
        some none := by
    decide +kernel
  have hOpen :
      ((openIfPresent (legacyPathFor "o")).perform
          after.counted).1.toOption =
        some (some (.file 1)) := by
    decide +kernel
  have hParse :
      FrameIndex.ofBytes (after.bytesOf 1) = .ok oneFrame := by
    have hBytes : after.bytesOf 1 = oneFrame.toBytes := by
      decide +kernel
    rw [hBytes]
    exact ofBytes_oneFrame
  exact
    not_agrees_of_empty hNode hEmpty
      (perform_load_of_legacy hNone hOpen hParse) (by decide)

end CompressRequest

end SplitStream
