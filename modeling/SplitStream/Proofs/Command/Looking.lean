import SplitStream.Proofs.Command.Streamed
import SplitStream.Proofs.Storage.Calm

/-
  What commands see of a stream in a file, where nothing
  fails: its framing, its codec, and its index, which is read
  if it stands beside the file and found by a scan if none
  does. To look changes nothing but the count of operations.

  Main declarations:
    * `Session.Shows`
    * `Described.succeeds_read`
    * `IndexFile.Known`
    * `Command.succeeds_findIndex`
-/

------------------------------------------------------------
-- Sessions
------------------------------------------------------------

namespace SplitStream

namespace Session

variable
  {session after last : Session} {file : String} {number : Nat}
  {bytes : Bytes}

/- Operations have been counted, and nothing else is changed. -/
def Counts
    (session after : Session) : Prop :=
  ∃ files,
    session.files.Counts files ∧
    after = { session with files := files }

theorem Counts.refl
    (session : Session) :
    session.Counts session :=
  ⟨session.files, ⟨session.files.step, rfl⟩, rfl⟩

theorem Counts.trans
    (hFirst : session.Counts after)
    (hLast : after.Counts last) :
    session.Counts last := by
  rcases hFirst with ⟨_, hFiles, rfl⟩
  rcases hLast with ⟨files, hMore, rfl⟩
  exact ⟨files, hFiles.trans hMore, rfl⟩

theorem Counts.files
    (h : session.Counts after) :
    session.files.Counts after.files := by
  rcases h with ⟨files, hFiles, rfl⟩
  exact hFiles

/- Nothing fails, and a file has some bytes. -/
structure Shows
    (file : String)
    (number : Nat)
    (bytes : Bytes)
    (session : Session) : Prop where
  calm : session.files.Calm
  isFile : session.files.IsFile file number
  bytes_eq : session.files.bytesOf number = bytes

theorem Shows.congr
    (h : session.Shows file number bytes)
    (hFiles : after.files = session.files) :
    after.Shows file number bytes where
  calm := by
    rw [hFiles]
    exact h.calm
  isFile := by
    rw [hFiles]
    exact h.isFile
  bytes_eq := by
    rw [hFiles]
    exact h.bytes_eq

theorem Shows.counts
    (h : session.Shows file number bytes)
    (hCounts : session.Counts after) :
    after.Shows file number bytes where
  calm := hCounts.files.calm h.calm
  isFile := hCounts.files.sameNames.isFile h.isFile
  bytes_eq :=
    (hCounts.files.intact.bytesOf_eq number).trans h.bytes_eq

/- A file is shown as before when others have been altered. -/
theorem Shows.alters
    {names : List String}
    (h : session.Shows file number bytes)
    (hAlters : session.files.Alters names after.files)
    (hAvoids : session.files.Avoids file names) :
    after.Shows file number bytes where
  calm := hAlters.calm h.calm
  isFile :=
    (hAlters.directories.admits h.isFile.admits).isFile
      ((hAlters.nodes file hAvoids).trans h.isFile.nodeAt?_eq)
  bytes_eq :=
    (hAlters.bytes file number hAvoids
      h.isFile.nodeAt?_eq).trans h.bytes_eq

theorem Shows.source_eq
    (h : session.Shows file number bytes) :
    session.files.sourceOf (.file number) = .ofBytes bytes :=
  congrArg Source.ofBytes h.bytes_eq

end Session

------------------------------------------------------------
-- Steps
------------------------------------------------------------

namespace Command

variable
  {session : Session} {file : String} {number : Nat}
  {bytes : Bytes}

/- A file that is shown is opened. -/
theorem succeeds_open
    (h : session.Shows file number bytes)
    (failure : Error → Failure) :
    (onFiles failure (FileSystem.openNode file)).Succeeds
      session
      (fun node after =>
        node = .file number ∧ session.Counts after) := by
  have hOpen :
      (FileSystem.openNode file).Succeeds session.files
        (fun node fs =>
          node = .file number ∧ session.files.Counts fs) :=
    Step.ends_of_ok
      (FileSystem.openNode_of_isFile h.calm h.isFile)
      ⟨rfl, session.files.counts_counted⟩
  refine
    Step.Succeeds.mono (succeeds_onFiles hOpen failure) ?_
  rintro node after ⟨hAfter, hNode, hCounts⟩
  exact ⟨hNode, after.files, hCounts, hAfter⟩

/- What is read from a file is read from its bytes. -/
theorem succeeds_source
    {α : Type}
    {reading : Reading α}
    {a : α}
    {next : Source}
    (h : session.Shows file number bytes)
    (hReading : reading.perform (.ofBytes bytes) = (.ok a, next))
    (failure : Error → Failure) :
    (onFiles failure
        (FileSystem.withSource (.file number) reading)).Succeeds
      session (fun b after => b = a ∧ after = session) := by
  have hRead :
      (FileSystem.withSource (.file number) reading).Succeeds
        session.files
        (fun b fs => b = a ∧ fs = session.files) := by
    apply Step.ends_of_ok (a := a) (t := session.files)
    · unfold FileSystem.withSource
      rw [Step.perform_bind_of_ok (Step.perform_get _),
        Step.perform_ofExcept, h.source_eq, hReading]
    · exact ⟨rfl, rfl⟩
  refine
    Step.Succeeds.mono (succeeds_onFiles hRead failure) ?_
  rintro b after ⟨hAfter, hSame, hFiles⟩
  rw [hFiles] at hAfter
  exact ⟨hSame, hAfter⟩

end Command

------------------------------------------------------------
-- Framing
------------------------------------------------------------

variable
  {session : Session} {file : String} {number : Nat}
  {bytes : Bytes} {kind : Bundled} {raw : Bool}
  {blocks : List Bytes} {index : FrameIndex}

/-
  The framing of a stream is recognised, and its codec is
  known if it is told for a raw stream.
-/
theorem Described.succeeds_read
    [Engines]
    (hShows : session.Shows file number bytes)
    (hStreamed : Streamed kind raw bytes blocks index)
    {rawCodec : Bundled}
    (hKind : raw = true → rawCodec = kind) :
    (Described.read file rawCodec).Succeeds session
      (fun described after =>
        described.header.isSome = !raw ∧
        described.codec = kind.codec none ∧
        session.Counts after) := by
  unfold Described.read
  refine
    (Command.succeeds_during
      (Command.succeeds_open hShows _) _).bind ?_
  rintro _ opened ⟨rfl, hCounts⟩
  have hOpened := hShows.counts hCounts
  cases raw with
  | false =>
    rcases hStreamed.perform_header with
      ⟨fields, seen, read, hDetect, hRead, hMethod⟩
    refine (Command.succeeds_source hOpened hDetect _).bind ?_
    rintro _ _ ⟨rfl, rfl⟩
    refine
      (Command.succeeds_during
        (Command.succeeds_source hOpened hRead _) _).bind ?_
    rintro _ named ⟨rfl, rfl⟩
    apply Step.ends_of_ok (t := named)
    · rw [hMethod]
      rfl
    · exact ⟨rfl, rfl, hCounts⟩
  | true =>
    rcases hStreamed.perform_detect with ⟨seen, hDetect⟩
    refine (Command.succeeds_source hOpened hDetect _).bind ?_
    rintro _ named ⟨rfl, rfl⟩
    apply Step.ends_of_ok rfl
    exact ⟨rfl, by rw [hKind rfl], hCounts⟩

------------------------------------------------------------
-- Indexes
------------------------------------------------------------

/-
  The index of a file stands beside it, or none does, under
  neither of the names at which it is looked for.
-/
def IndexFile.Known
    (file : String)
    (index : FrameIndex)
    (fs : FileSystem) : Prop :=
  fs.HasFile (pathFor file) index.toBytes ∨
    Absent file fs ∧
      fs.Admits (pathFor file) ∧
      fs.Admits (legacyPathFor file)

theorem IndexFile.Known.counts
    {fs fs' : FileSystem}
    (h : Known file index fs)
    (hCounts : fs.Counts fs') :
    Known file index fs' := by
  rcases h with hHas | ⟨hAbsent, hIndex, hLegacy⟩
  · exact .inl (hCounts.hasFile hHas)
  · have hDirectories := hCounts.sameNames.sameDirectories
    exact
      .inr
        ⟨hAbsent.sameNames hCounts.sameNames,
          hDirectories.admits hIndex,
          hDirectories.admits hLegacy⟩

/- The index of a stream is found, wherever it is. -/
theorem Command.succeeds_findIndex
    [Engines]
    (hShows : session.Shows file number bytes)
    (hStreamed : Streamed kind raw bytes blocks index)
    (hLength : bytes.length ≤ Bytes.wordCount FrameIndex.entrySize)
    (hKnown : IndexFile.Known file index session.files) :
    (Command.findIndex file).Succeeds session
      (fun found after =>
        found.1 = index ∧ session.Counts after) := by
  unfold Command.findIndex
  rcases hKnown with hHas | ⟨hAbsent, hIndex, hLegacy⟩
  · have hLoad :=
      IndexFile.succeeds_load_of_hasFile hShows.calm hHas
        (hStreamed.storedAs.parsed hLength)
    refine (Command.succeeds_onFiles hLoad _).bind ?_
    rintro _ loaded ⟨hAfter, rfl, hCounts⟩
    exact
      Step.ends_of_ok rfl ⟨rfl, loaded.files, hCounts, hAfter⟩
  · have hLoad :=
      IndexFile.succeeds_load_of_absent hShows.calm hIndex
        hLegacy hAbsent
    refine (Command.succeeds_onFiles hLoad _).bind ?_
    rintro _ loaded ⟨hAfter, rfl, hCounts⟩
    have hLoaded : session.Counts loaded :=
      ⟨loaded.files, hCounts, hAfter⟩
    refine
      (Command.succeeds_open (hShows.counts hLoaded) _).bind ?_
    rintro _ opened ⟨rfl, hMore⟩
    have hOpened := hLoaded.trans hMore
    rcases hStreamed.finds .prompt with ⟨next, hScan⟩
    refine
      (Command.succeeds_source (hShows.counts hOpened) hScan
        _).bind ?_
    rintro _ scanned ⟨rfl, rfl⟩
    exact Step.ends_of_ok rfl ⟨rfl, hOpened⟩

end SplitStream
