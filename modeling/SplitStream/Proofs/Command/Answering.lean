import SplitStream.Command.Decompress
import SplitStream.Command.Inspect
import SplitStream.Proofs.Command.Looking

/-
  What commands make of a stream in a file, where nothing
  fails: all of its bytes, one of its blocks, or its index.
  Each of them alters the file it writes, and no other.

  Main declarations:
    * `Outtake.Has`
    * `DecompressRequest.succeeds_run`
    * `BlockRequest.succeeds_run`
    * `BlockRequest.fails_run`
    * `Command.succeeds_writeIndex`
-/

------------------------------------------------------------
-- Outtakes
------------------------------------------------------------

namespace SplitStream

open OutputStream

/- The names of the files that an output is written to. -/
def Outtake.names
    (target : String) : List String :=
  if target = "-" then
    []
  else
    [target]

/-
  Bytes have come to an output: they are printed, or they are
  in the file of a name.
-/
def Outtake.Restored
    (target : String)
    (bytes : Bytes)
    (before after : Session) : Prop :=
  if target = "-" then
    after.printed.toBytes = before.printed.toBytes ++ bytes
  else
    after.files.HasFile target bytes

/- Bytes have been given to an outtake since it was made. -/
inductive Outtake.Has
    (target : String)
    (bytes : Bytes)
    (before after : Session) : Outtake → Prop where
  | standard
      (dash : target = "-")
      (printed :
        after.printed.toBytes = before.printed.toBytes ++ bytes)
      (alters : before.files.Alters [] after.files) :
      Has target bytes before after .standard
  | stream
      {stream : OutputStream}
      (dash : target ≠ "-")
      (feeds : stream.Feeds target bytes after.files)
      (alters : before.files.Alters [target] after.files) :
      Has target bytes before after (.stream stream)

namespace Outtake

variable
  {target : String} {bytes : Bytes} {before after : Session}
  {out : Outtake}

theorem Has.alters
    (h : Has target bytes before after out) :
    before.files.Alters (names target) after.files := by
  unfold names
  cases h with
  | standard hDash _ hAlters =>
    rw [if_pos hDash]
    exact hAlters
  | stream hDash _ hAlters =>
    rw [if_neg hDash]
    exact hAlters

/- An outtake is made without any bytes. -/
theorem succeeds_fromPath
    {session : Session}
    (hSound : session.files.Sound)
    (hCalm : session.files.Calm)
    (hAdmits : target ≠ "-" → session.files.Admits target) :
    (Outtake.fromPath target).Succeeds session
      (fun out after => out.Has target [] session after) := by
  unfold Outtake.fromPath
  by_cases hDash : target = "-"
  · rw [if_pos hDash]
    apply Step.ends_of_ok rfl
    refine .standard hDash (List.append_nil _).symm ?_
    exact
      FileSystem.Counts.alters ⟨session.files.step, rfl⟩ []
  · rw [if_neg hDash]
    have hCreate :=
      OutputStream.succeeds_create hSound hCalm (hAdmits hDash)
    refine
      Command.succeeds_during
        ((Command.succeeds_onFiles hCreate _).bind ?_) _
    rintro stream created ⟨_, hFeeds, hAlters⟩
    exact Step.ends_of_ok rfl (.stream hDash hFeeds hAlters)

/- All bytes are written. -/
theorem Has.write
    (h : Has target bytes before after out)
    (bs : Bytes) :
    (Outtake.write bs out).Succeeds after
      (fun _ last => out.Has target (bytes ++ bs) before last) := by
  cases h with
  | standard hDash hPrinted hAlters =>
    have hMore :
        (after.printed.append bs).toBytes =
          before.printed.toBytes ++ (bytes ++ bs) := by
      rw [Tape.toBytes_append, hPrinted, List.append_assoc]
    exact Step.ends_of_ok rfl (.standard hDash hMore hAlters)
  | stream hDash hFeeds hAlters =>
    have hDeliver := hFeeds.deliver bs
    refine
      Step.Succeeds.mono
        (Command.succeeds_onFiles hDeliver _) ?_
    rintro _ last ⟨_, hMore, hLast⟩
    exact .stream hDash hMore (hAlters.trans hLast)

theorem Has.flush
    (h : Has target bytes before after out) :
    (Outtake.flush out).Succeeds after
      (fun _ last => out.Has target bytes before last) := by
  cases h with
  | standard hDash hPrinted hAlters =>
    exact
      Step.ends_of_ok rfl (.standard hDash hPrinted hAlters)
  | stream hDash hFeeds hAlters =>
    refine
      Step.Succeeds.mono
        (Command.succeeds_onFiles hFeeds.flushBuffer _) ?_
    rintro _ last ⟨_, hMore, hLast⟩
    exact .stream hDash hMore (hAlters.trans hLast)

/- An outtake that is given up has handed over its bytes. -/
theorem Has.discard
    (h : Has target bytes before after out) :
    Restored target bytes before
        (Command.cleaning out.discard after) ∧
      before.files.Alters (names target)
        (Command.cleaning out.discard after).files := by
  unfold Restored names
  cases h with
  | standard hDash hPrinted hAlters =>
    rw [if_pos hDash, if_pos hDash]
    exact ⟨hPrinted, hAlters⟩
  | stream hDash hFeeds hAlters =>
    rw [if_neg hDash, if_neg hDash]
    rcases hFeeds.discard with ⟨hHas, hLast⟩
    exact ⟨hHas, hAlters.trans hLast⟩

/- It does not matter what was counted before. -/
theorem Has.behind
    {session : Session}
    (h : Has target bytes before after out)
    (hCounts : session.Counts before) :
    Has target bytes session after out := by
  have hPrinted : before.printed = session.printed := by
    rcases hCounts with ⟨files, _, rfl⟩
    rfl
  cases h with
  | standard hDash hAfter hAlters =>
    rw [hPrinted] at hAfter
    exact
      .standard hDash hAfter
        ((hCounts.files.alters []).trans hAlters)
  | stream hDash hFeeds hAlters =>
    exact
      .stream hDash hFeeds
        ((hCounts.files.alters [target]).trans hAlters)

theorem Has.noted
    {last : Session}
    (h : Has target bytes before after out)
    (hFiles : last.files = after.files)
    (hPrinted : last.printed = after.printed) :
    Has target bytes before last out := by
  cases h with
  | standard hDash hAfter hAlters =>
    rw [← hPrinted] at hAfter
    rw [← hFiles] at hAlters
    exact .standard hDash hAfter hAlters
  | stream hDash hFeeds hAlters =>
    rw [← hFiles] at hFeeds hAlters
    exact .stream hDash hFeeds hAlters

/- What has been written is handed over, and told about. -/
theorem Has.report
    (h : Has target bytes before after out)
    (lines : List String) :
    (out.flush >>= fun _ =>
      Command.noteAll lines).Succeeds after
      (fun _ last => out.Has target bytes before last) := by
  refine h.flush.bind ?_
  intro _ flushed hFlushed
  refine
    Step.Succeeds.mono (Command.succeeds_noteAll lines flushed) ?_
  rintro _ last ⟨hFiles, hPrinted⟩
  exact hFlushed.noted hFiles hPrinted

end Outtake

------------------------------------------------------------
-- Restored Files
------------------------------------------------------------

variable
  {session : Session} {file : String} {number : Nat}
  {bytes : Bytes} {kind : Bundled} {raw : Bool}
  {blocks : List Bytes} {index : FrameIndex}

namespace DecompressRequest

variable {request : DecompressRequest}

/- What a reader collects is written. -/
theorem succeeds_restore
    {ρ : Type}
    [FrameReader ρ]
    {reader : ρ}
    {target : String}
    {data : Bytes}
    {before : Session}
    {out : Outtake}
    (hFailure : (FrameReader.readToEnd reader).failure = none)
    (hBytes :
      (FrameReader.readToEnd reader).bytes.toBytes = data)
    (hHas : out.Has target [] before session) :
    (request.restore reader out).Succeeds session
      (fun _ after => out.Has target data before after) := by
  have hWrite := hHas.write data
  rw [List.nil_append, ← hBytes] at hWrite
  unfold restore
  refine Command.succeeds_during (hWrite.bind ?_) _
  intro _ written hWritten
  rw [hFailure]
  rw [hBytes] at hWritten
  exact Step.ends_of_ok rfl hWritten

/- All bytes of a stream are restored. -/
theorem succeeds_run
    [Engines]
    (hSound : session.files.Sound)
    (hShows : session.Shows request.input number bytes)
    (hStreamed : Streamed kind raw bytes blocks index)
    (hKind : raw = true → request.codec = kind)
    (hAdmits :
      request.output ≠ "-" →
        session.files.Admits request.output)
    (hAvoids :
      session.files.Avoids request.input
        (Outtake.names request.output)) :
    request.run.Succeeds session
      (fun _ after =>
        Outtake.Restored request.output blocks.flatten session
            after ∧
          session.files.Alters (Outtake.names request.output)
            after.files) := by
  unfold run
  refine (Described.succeeds_read hShows hStreamed hKind).bind ?_
  rintro described read ⟨hHeader, hCodec, hRead⟩
  refine
    (Command.succeeds_open (hShows.counts hRead) _).bind ?_
  rintro _ opened ⟨rfl, hMore⟩
  have hOpened := hRead.trans hMore
  have hSame := hOpened.files.sameNames
  have hOuttake :=
    Outtake.succeeds_fromPath (hSame.sound hSound)
      (hOpened.files.calm hShows.calm)
      (fun hDash => hSame.sameDirectories.admits (hAdmits hDash))
  refine hOuttake.bind ?_
  intro out made hMade
  have hHas := hMade.behind hOpened
  have hShown := hShows.alters hHas.alters hAvoids
  refine
    Step.Succeeds.ensuring
      (show Step.Succeeds _ made
          (fun _ after =>
            out.Has request.output blocks.flatten session after)
        from ?_)
      (fun _ _ hDone => hDone.discard)
  rcases described with ⟨header, codec⟩
  subst hCodec
  cases raw with
  | false =>
    rcases Option.isSome_iff_exists.mp hHeader with
      ⟨fields, rfl⟩
    rcases hStreamed.collect_container with
      ⟨reader, next, hStart, hFailure, hBytes⟩
    refine (Command.succeeds_source hShown hStart _).bind ?_
    rintro _ _ ⟨rfl, rfl⟩
    refine (succeeds_restore hFailure hBytes hHas).bind ?_
    intro _ restored hRestored
    exact hRestored.report _
  | true =>
    have hNone : header = none := by simpa using hHeader
    subst hNone
    rcases hStreamed.collect_raw with ⟨hFailure, hBytes⟩
    rw [← hShown.source_eq] at hFailure hBytes
    refine (Step.ends_get made).bind ?_
    rintro _ _ ⟨rfl, rfl⟩
    refine (succeeds_restore hFailure hBytes hHas).bind ?_
    intro _ restored hRestored
    exact hRestored.report _

end DecompressRequest

------------------------------------------------------------
-- Restored Blocks
------------------------------------------------------------

namespace BlockRequest

variable {request : BlockRequest}

/- The first block of a split that is opened is decoded. -/
theorem succeeds_fromSplit
    {ρ : Type}
    [FrameReader ρ]
    {opening : Reading (Option (Split ρ))}
    {offset : Nat}
    {block : Bytes}
    {rest : List Bytes}
    (hShows : session.Shows file number bytes)
    (hOpens :
      Split.Opens opening bytes offset (block :: rest)) :
    (fromSplit (.file number) opening).Succeeds session
      (fun bs after => bs = block ∧ after = session) := by
  rcases hOpens 0 .prompt with
    ⟨split, next, hOpen, _, _, hDelivers⟩
  unfold fromSplit
  refine (Command.succeeds_source hShows hOpen _).bind ?_
  rintro _ _ ⟨rfl, rfl⟩
  simp only [firstFrame_of_delivers hDelivers]
  exact Step.ends_of_ok rfl ⟨rfl, rfl⟩

/- The block at an entry of the index is restored. -/
theorem succeeds_restore
    [Engines]
    {described : Described}
    {k offset : Nat}
    {block : Bytes}
    (hShows : session.Shows request.file number bytes)
    (hStreamed : Streamed kind raw bytes blocks index)
    (hLength : bytes.length ≤ FileSystem.positionLimit)
    (hHeader : described.header.isSome = !raw)
    (hCodec : described.codec = kind.codec none)
    (hEntry : index.position k = some offset)
    (hBlock : blocks[k]? = some block) :
    (request.restore described index offset).Succeeds session
      (fun bs after => bs = block ∧ session.Counts after) := by
  have hOffset : offset < FileSystem.positionLimit :=
    Nat.lt_of_lt_of_le
      (hStreamed.lt_of_mem (List.mem_of_getElem? hEntry)) hLength
  have hDrop : blocks.drop k = block :: blocks.drop (k + 1) := by
    rcases List.getElem?_eq_some_iff.mp hBlock with
      ⟨hInside, rfl⟩
    exact List.drop_eq_getElem_cons hInside
  unfold restore
  refine (Command.succeeds_open hShows _).bind ?_
  rintro _ opened ⟨rfl, hOpened⟩
  have hShown := hShows.counts hOpened
  have hCheck :
      (Command.library (FileSystem.checkOffset offset)).Succeeds
        opened (fun _ after => after = opened) := by
    apply Step.ends_of_ok (t := opened)
    · unfold FileSystem.checkOffset
      rw [if_pos hOffset]
      rfl
    · rfl
  refine hCheck.bind ?_
  rintro _ _ rfl
  rcases described with ⟨header, codec⟩
  subst hCodec
  cases raw with
  | false =>
    rcases Option.isSome_iff_exists.mp hHeader with
      ⟨fields, rfl⟩
    have hOpens := hStreamed.opens_container hEntry
    rw [hDrop] at hOpens
    refine
      Step.Succeeds.mono (succeeds_fromSplit hShown hOpens) ?_
    rintro _ _ ⟨hSame, rfl⟩
    exact ⟨hSame, hOpened⟩
  | true =>
    have hNone : header = none := by simpa using hHeader
    subst hNone
    have hOpens := hStreamed.opens_raw hEntry
    rw [hDrop] at hOpens
    refine
      Step.Succeeds.mono (succeeds_fromSplit hShown hOpens) ?_
    rintro _ _ ⟨hSame, rfl⟩
    exact ⟨hSame, hOpened⟩

/- A block that is there is restored to a file. -/
theorem succeeds_run
    [Engines]
    {target : String}
    {block : Bytes}
    (hSound : session.files.Sound)
    (hShows : session.Shows request.file number bytes)
    (hStreamed : Streamed kind raw bytes blocks index)
    (hLength : bytes.length ≤ FileSystem.positionLimit)
    (hKind : raw = true → request.codec = kind)
    (hKnown : IndexFile.Known request.file index session.files)
    (hOutput : request.output = some target)
    (hAdmits : session.files.Admits target)
    (hBlock : blocks[request.block]? = some block) :
    request.run.Succeeds session
      (fun _ after =>
        after.files.HasFile target block ∧
        session.files.Alters [target] after.files) := by
  have hWord : bytes.length ≤ Bytes.wordCount FrameIndex.entrySize :=
    Nat.le_trans hLength (by decide)
  rcases List.getElem?_eq_some_iff.mp hBlock with ⟨hInside, _⟩
  rw [← hStreamed.count_eq] at hInside
  have hEntry :
      index.position request.block =
        some index.offsets[request.block] :=
    List.getElem?_eq_getElem hInside
  unfold run
  refine (Described.succeeds_read hShows hStreamed hKind).bind ?_
  rintro described read ⟨hHeader, hCodec, hRead⟩
  refine
    (Command.succeeds_findIndex (hShows.counts hRead) hStreamed
      hWord (hKnown.counts hRead.files)).bind ?_
  rintro ⟨_, origin⟩ found ⟨rfl, hMore⟩
  have hFound := hRead.trans hMore
  simp only [hEntry]
  refine (Command.succeeds_note _ found).bind ?_
  rintro _ noted hNoted
  have hFiles : noted.files = found.files := by rw [hNoted]
  have hShown := (hShows.counts hFound).congr hFiles
  refine
    (succeeds_restore hShown hStreamed hLength hHeader hCodec
      hEntry hBlock).bind ?_
  rintro bs restored ⟨rfl, hRestored⟩
  refine (Command.succeeds_note _ restored).bind ?_
  rintro _ told hTold
  have hCounts : session.files.Counts told.files := by
    rw [hTold]
    exact (hFiles ▸ hFound.files).trans hRestored.files
  simp only [hOutput]
  have hSame := hCounts.sameNames
  have hPut :=
    FileSystem.succeeds_putFile (hSame.sound hSound)
      (hCounts.calm hShows.calm)
      (hSame.sameDirectories.admits hAdmits) bs
  refine (Command.succeeds_onFiles hPut _).bind ?_
  rintro _ written ⟨_, hHas, hAlters⟩
  refine
    Step.Succeeds.mono (Command.succeeds_note _ written) ?_
  rintro _ after rfl
  exact ⟨hHas, (hCounts.alters [target]).trans hAlters⟩

/- There is no block behind the last one. -/
theorem fails_run
    [Engines]
    (hShows : session.Shows request.file number bytes)
    (hStreamed : Streamed kind raw bytes blocks index)
    (hLength : bytes.length ≤ FileSystem.positionLimit)
    (hKind : raw = true → request.codec = kind)
    (hKnown : IndexFile.Known request.file index session.files)
    (hBlock : blocks.length ≤ request.block) :
    request.run.Ends session (fun _ _ => False)
      (fun failure after =>
        failure = .blockBeyond request.block blocks.length ∧
        session.Counts after) := by
  have hWord : bytes.length ≤ Bytes.wordCount FrameIndex.entrySize :=
    Nat.le_trans hLength (by decide)
  have hEntry : index.position request.block = none := by
    rw [← hStreamed.count_eq] at hBlock
    exact List.getElem?_eq_none hBlock
  unfold run
  refine
    Step.Succeeds.followed
      (Described.succeeds_read hShows hStreamed hKind) ?_
  rintro described read ⟨_, _, hRead⟩
  refine
    Step.Succeeds.followed
      (Command.succeeds_findIndex (hShows.counts hRead)
        hStreamed hWord (hKnown.counts hRead.files)) ?_
  rintro ⟨_, origin⟩ found ⟨rfl, hMore⟩
  simp only [hEntry]
  refine Step.ends_of_error rfl ⟨?_, hRead.trans hMore⟩
  rw [hStreamed.count_eq]

end BlockRequest

------------------------------------------------------------
-- Rebuilt Indexes
------------------------------------------------------------

/- A scan of a file finds its index. -/
theorem IndexFile.succeeds_scanFile
    [Engines]
    (hShows : session.Shows file number bytes)
    (hStreamed : Streamed kind raw bytes blocks index) :
    (IndexFile.scanFile file).Succeeds session.files
      (fun found fs =>
        found = index ∧ session.files.Counts fs) := by
  have hSource :
      session.files.counted.sourceOf (.file number) =
        .ofBytes bytes :=
    hShows.source_eq
  rcases hStreamed.finds .prompt with ⟨next, hScan⟩
  apply Step.ends_of_ok (a := index)
    (t := session.files.counted)
  · unfold IndexFile.scanFile FileSystem.withSource
    rw [Step.perform_bind_of_ok
        (FileSystem.openNode_of_isFile hShows.calm hShows.isFile),
      Step.perform_bind_of_ok (Step.perform_get _),
      Step.perform_ofExcept, hSource]
    exact congrArg (fun found => (found.1, _)) hScan
  · exact ⟨rfl, session.files.counts_counted⟩

/- The index of a stream is found and stored beside it. -/
theorem Command.succeeds_writeIndex
    [Engines]
    (hSound : session.files.Sound)
    (hShows : session.Shows file number bytes)
    (hStreamed : Streamed kind raw bytes blocks index)
    (hIndex : session.files.Admits (IndexFile.pathFor file))
    (hTemporary :
      session.files.Admits
        (IndexFile.temporary (IndexFile.pathFor file))) :
    (Command.writeIndex file).Succeeds session
      (fun _ after =>
        after.files.HasFile (IndexFile.pathFor file)
            index.toBytes ∧
          session.files.Alters
            [IndexFile.temporary (IndexFile.pathFor file),
              IndexFile.pathFor file]
            after.files) := by
  have hRebuild :
      (IndexFile.rebuild file).Succeeds session.files
        (fun _ fs =>
          fs.HasFile (IndexFile.pathFor file) index.toBytes ∧
            session.files.Alters
              [IndexFile.temporary (IndexFile.pathFor file),
                IndexFile.pathFor file]
              fs) := by
    unfold IndexFile.rebuild
    refine
      (IndexFile.succeeds_scanFile hShows hStreamed).bind ?_
    rintro _ scanned ⟨rfl, hCounts⟩
    have hSame := hCounts.sameNames
    have hDirectories := hSame.sameDirectories
    have hSave :=
      IndexFile.succeeds_save (hSame.sound hSound)
        (hCounts.calm hShows.calm)
        (hDirectories.admits hShows.isFile.admits)
        (hDirectories.admits hTemporary)
        (hDirectories.admits hIndex)
    refine (hSave _).bind ?_
    rintro _ saved ⟨hHas, hAlters⟩
    exact
      Step.ends_of_ok rfl
        ⟨hHas, (hCounts.alters _).trans hAlters⟩
  unfold Command.writeIndex
  refine
    (Command.succeeds_during
      (Command.succeeds_onFiles hRebuild _) _).bind ?_
  rintro _ rebuilt ⟨_, hDone⟩
  refine
    Step.Succeeds.mono (Command.succeeds_noteAll _ rebuilt) ?_
  rintro _ after ⟨hFiles, _⟩
  rw [hFiles]
  exact hDone

end SplitStream
