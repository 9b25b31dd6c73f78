import SplitStream.Proofs.Codec.Standard
import SplitStream.Proofs.Command.Archiving
import SplitStream.Proofs.Command.Inquiries
import SplitStream.Proofs.Command.OwnIndexes

/-
  Compressing a file and asking for its data. Where nothing
  fails, where the engines lose nothing, and where what is
  compressed is in no file that the compression writes,
  everything that is asked of the output afterwards is
  answered with the data that was compressed.

  Main declarations:
    * `Streamed.Stored.exists_archived`
    * `CompressRequest.answers_all_after_run`
    * `CompressRequest.loses_own_temporary`
-/

------------------------------------------------------------
-- Compressed Files
------------------------------------------------------------

namespace SplitStream

open IndexFile

/- A file in which a stream is stored is an archive. -/
theorem Streamed.Stored.exists_archived
    [Engines]
    {kind : Bundled}
    {raw captured : Bool}
    {file : String}
    {blocks : List Bytes}
    {start fs : FileSystem}
    (h : Streamed.Stored kind raw captured file blocks start fs)
    (hHosts : start.Hosts file) :
    ∃ bytes index,
      Archived kind raw file bytes blocks index fs ∧
        (if captured then
          fs.HasFile (pathFor file) index.toBytes
        else
          Absent file fs) ∧
        start.Alters (takenNames file) fs := by
  rcases h with ⟨bytes, index, hStreamed, hHas, hIndex, hAlters⟩
  have hDirectories := hAlters.directories
  have hAdmits := hDirectories.admits hHosts.index_admits
  have hKnown : Known file index fs := by
    cases captured with
    | false =>
      exact
        .inr
          ⟨hIndex, hAdmits,
            hDirectories.admits hHosts.legacy_admits⟩
    | true => exact .inl hIndex
  refine ⟨bytes, index, ?_, hIndex, hAlters⟩
  exact
    { sound := hAlters.sound hHosts.sound
      calm := hAlters.calm hHosts.calm
      streamed := hStreamed
      has := hHas
      known := hKnown
      index_admits := hAdmits
      temporary_admits :=
        hDirectories.admits hHosts.temporary_admits }

namespace CompressRequest

/-
  With engines that lose nothing, compressing data succeeds,
  and writes to no other file than the output and its index.
  If the output is not too long for its positions to be moved
  to, every inquiry about it then is answered right, one after
  another; and to write its index once more makes the one that
  was captured.
-/
theorem answers_all_after_run
    [engines : Engines]
    (hEngines : engines.Sound)
    {request : CompressRequest}
    {session : Session}
    {data : Bytes}
    (hHosts : session.files.Hosts request.output)
    (hSize :
      0 < request.blockSize ∧ request.blockSize ≤ maxBlockSize)
    (hSupplies :
      session.Supplies request.input
        (serviceNames request.output request.index) data) :
    ∃ packed bytes stored,
      request.run.perform session = (.ok (), packed) ∧
      session.files.Alters (takenNames request.output)
        packed.files ∧
      packed.files.HasFile request.output bytes ∧
      (if request.index then
        packed.files.HasFile request.indexPath stored
      else
        Absent request.output packed.files) ∧
      (bytes.length ≤ FileSystem.positionLimit →
        ∀ inquiries : List Inquiry,
          (∀ inquiry ∈ inquiries,
            inquiry.Allowed request.codec request.raw
              request.output session.files) →
            Inquiry.AllAnswered data stored request.blockSize
              request.output inquiries packed) := by
  rcases
    (succeeds_run hEngines hHosts hSize hSupplies).exists_ok with
    ⟨_, packed, hRun, blocks, hStored, hDivided⟩
  rcases hStored.exists_archived hHosts with
    ⟨bytes, index, hArchived, hIndex, hAlters⟩
  refine
    ⟨packed, bytes, index.toBytes, hRun, hAlters, hArchived.has,
      hIndex, ?_⟩
  intro hLength inquiries hAllowed
  apply
    hArchived.all_answered hDivided hSize.1 hLength
  intro inquiry hInquiry
  exact
    (hAllowed inquiry hInquiry).sameDirectories
      hAlters.directories

/- A session with one file, and with the same bytes as input. -/
def supplied
    (name : String)
    (bytes : Bytes) : Session :=
  .start ((FileSystem.putFile name bytes).final .empty) 0 bytes

theorem sound_supplied
    (name : String)
    (bytes : Bytes) :
    (supplied name bytes).files.Sound :=
  (FileSystem.Built.empty.putFile name bytes).sound

/- Bytes become a file with an index beside it. -/
def compressed
    (input : String)
    (raw : Bool) : CompressRequest where
  input := input
  output := "o"
  codec := .stored
  level := none
  blockSize := 2
  raw := raw
  index := true
  checksums := none

/- What is asked of a raw stream, with its index in between. -/
def fiveInquiries : List Inquiry :=
  [ .restore "d" .stored, .block 2 "b" .stored, .index,
    .block 3 "b" .stored, .restore "-" .stored ]

theorem answers_all_after_run_of_five :
    ∃ packed stored,
      (compressed "-" true).run.perform
          (supplied "a" [1, 2, 3, 4, 5]) =
        (.ok (), packed) ∧
      packed.files.HasFile "o.idx" stored ∧
      Inquiry.AllAnswered [1, 2, 3, 4, 5] stored 2 "o"
        fiveInquiries packed := by
  let request := compressed "-" true
  let session := supplied "a" [1, 2, 3, 4, 5]
  have hHosts : session.files.Hosts "o" :=
    { sound := sound_supplied _ _
      calm := fun _ => rfl
      admits := by decide +kernel
      index_admits := by decide +kernel
      temporary_admits := by decide +kernel
      legacy_admits := by decide +kernel
      legacy_none := by decide +kernel }
  have hShort :
      ∀ entry ∈ (request.run.final session).files.files.entries,
        entry.2.toBytes.length ≤ FileSystem.positionLimit := by
    decide +kernel
  have hAllowed :
      ∀ inquiry ∈ fiveInquiries,
        inquiry.Allowed request.codec request.raw request.output
          session.files := by
    decide +kernel
  rcases
    @answers_all_after_run _ Engines.standard_sound request
      session [1, 2, 3, 4, 5] hHosts (by decide) rfl with
    ⟨packed, bytes, stored, hRun, _, ⟨number, _, hHas⟩, hIndex,
      hAnswers⟩
  refine ⟨packed, stored, hRun, hIndex, ?_⟩
  apply hAnswers ?_ _ hAllowed
  rw [Step.final, hRun] at hShort
  rw [← hHas]
  exact length_bytesOf_le hShort number

/-
  The index is written to the file that was to be compressed:
  the output is a stream of no data.
-/
theorem succeeds_run_of_temporary
    (hHosts :
      (supplied "o.idx.tmp" [1, 2, 3, 4, 5]).files.Hosts "o") :
    (compressed "o.idx.tmp" false).run.Succeeds
      (supplied "o.idx.tmp" [1, 2, 3, 4, 5])
      (fun _ after =>
        (compressed "o.idx.tmp" false).Stores []
          (supplied "o.idx.tmp" [1, 2, 3, 4, 5]).files.counted
          after.files) := by
  let request := compressed "o.idx.tmp" false
  let session := supplied "o.idx.tmp" [1, 2, 3, 4, 5]
  let opened : Session :=
    { session with files := session.files.counted }
  have hFile : session.files.IsFile "o.idx.tmp" 0 := by
    decide +kernel
  have hOpened : opened.files.Hosts request.output :=
    hHosts.counts (FileSystem.counts_counted _)
  rcases
    (succeeds_createContainer Engines.standard_sound.toRoomy
      hOpened (by decide) opened.clock).exists_ok with
    ⟨container, created, hCreate, hTakes⟩
  have hEmpty :
      (((ContainerFile.create "o" (Bundled.stored.codec none)
              request.options 0).final
            opened.files).bytesOf 0) = [] ∧
        0 <
          ((ContainerFile.create "o" (Bundled.stored.codec none)
              request.options 0).final opened.files).next := by
    decide +kernel
  have hFinal :
      (ContainerFile.create "o" (Bundled.stored.codec none)
          request.options 0).final opened.files =
        created :=
    congrArg Prod.snd hCreate
  rw [hFinal] at hEmpty
  have hWrite :
      (request.writeContainer (.entry (.file 0))).Succeeds opened
        (fun _ after =>
          request.Stores [] opened.files after.files) := by
    refine (Step.ends_get opened).bind ?_
    rintro _ _ ⟨rfl, rfl⟩
    refine
      (Command.succeeds_during
        (Command.succeeds_onFiles (Step.succeeds_of_ok hCreate)
          .library) _).bind ?_
    rintro container written ⟨_, rfl, hFiles⟩
    rw [← hFiles] at hTakes hEmpty
    have hBrings :
        Intake.Brings [] [] written (.entry (.file 0)) :=
      .entry hEmpty.2 (by simp [FileSystem.Elsewhere]) hEmpty.1
    exact
      succeeds_fill Engines.standard_sound rfl
        hOpened.index_admits hTakes hBrings
  refine
    (Step.succeeds_of_ok
      (Intake.perform_fromPath (by decide) (fun _ => rfl)
        hFile)).bind ?_
  rintro _ _ ⟨rfl, rfl⟩
  exact hWrite.bind (succeeds_report hOpened)

theorem loses_own_temporary :
    "o.idx.tmp" ≠ "o" ∧
      (supplied "o.idx.tmp" [1, 2, 3, 4, 5]).files.Hosts "o" ∧
      (supplied "o.idx.tmp" [1, 2, 3, 4, 5]).files.HasFile
        "o.idx.tmp" [1, 2, 3, 4, 5] ∧
      ∃ packed restored,
        (compressed "o.idx.tmp" false).run.perform
            (supplied "o.idx.tmp" [1, 2, 3, 4, 5]) =
          (.ok (), packed) ∧
        ((Inquiry.restore "d" .stored).request "o").run.perform
            packed =
          (.ok (), restored) ∧
        ¬ Outtake.Restored "d" [1, 2, 3, 4, 5] packed
            restored := by
  let session := supplied "o.idx.tmp" [1, 2, 3, 4, 5]
  have hHosts : session.files.Hosts "o" :=
    { sound := sound_supplied _ _
      calm := fun _ => rfl
      admits := by decide +kernel
      index_admits := by decide +kernel
      temporary_admits := by decide +kernel
      legacy_admits := by decide +kernel
      legacy_none := by decide +kernel }
  have hAllowed :
      (Inquiry.restore "d" .stored).Allowed .stored false "o"
        session.files.counted := by
    decide +kernel
  rcases (succeeds_run_of_temporary hHosts).exists_ok with
    ⟨_, packed, hRun, blocks, hStored, hDivided⟩
  rcases hStored.exists_archived
    (hHosts.counts (FileSystem.counts_counted _)) with
    ⟨bytes, index, hArchived, _, hAlters⟩
  rcases hArchived.shows with ⟨number, hShows⟩
  rcases hAllowed.sameDirectories hAlters.directories with
    ⟨hAdmits, hAvoids, hKind⟩
  let request : DecompressRequest :=
    { input := "o"
      output := "d"
      codec := .stored }
  have hRestore :=
    request.succeeds_run hArchived.sound hShows
      hArchived.streamed hKind hAdmits hAvoids
  rcases hRestore.exists_ok with
    ⟨_, restored, hPerform, hNothing, _⟩
  rw [hDivided.joined] at hNothing
  refine
    ⟨by decide, hHosts,
      ⟨0, by decide +kernel, by decide +kernel⟩, packed,
      restored, hRun, hPerform, ?_⟩
  intro hData
  have hSame := hNothing.bytes_eq hData
  contradiction

end CompressRequest

end SplitStream
