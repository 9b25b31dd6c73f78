import SplitStream.Command.Inspect
import SplitStream.Command.ReadBlock
import SplitStream.Proofs.Command.Endings
import SplitStream.Proofs.Storage.IndexFiles

/-
  The indexes that commands find for a file, beside it or by
  a scan. Where the index beside a file agrees with it, they
  go on with the offsets of the file's own frames.

  Main declarations:
    * `Command.lookInto`
    * `Command.FindsOwn`
    * `Command.findsOwn_of_agrees`
-/

------------------------------------------------------------
-- Looking Into A File
------------------------------------------------------------

namespace SplitStream

open IndexFile

/- A directory is not scanned. -/
theorem FileSystem.scan_directory
    (fs : FileSystem) :
    (Scan.stream.perform (fs.sourceOf .directory)).1 =
      .error (.io .isADirectory) := by
  rcases fs.perform_upTo_directory (Nat.succ_pos 8) with
    ⟨next, hUpTo⟩
  have hPosition :
      Reading.position.perform (fs.sourceOf .directory) =
        (.ok 0, fs.sourceOf .directory) :=
    rfl
  have hDetect :
      Scan.detect.perform (fs.sourceOf .directory) =
        (.error (.io .isADirectory), next) := by
    unfold Scan.detect
    rw [Step.perform_bind_of_ok hPosition]
    exact Step.perform_bind_of_error hUpTo
  rw [Scan.stream, Step.perform_bind_of_error hDetect]

/- What a command learns of a file before it uses it. -/
def Command.lookInto
    [Engines]
    (file : String)
    (rawCodec : Bundled) :
    Command (Described × FrameIndex × IndexOrigin) := do
  let described ← Described.read file rawCodec
  let found ← Command.findIndex file
  return (described, found)

/- What has found an index has looked into the file. -/
theorem Command.lookInto_bind
    [Engines]
    {α : Type}
    (file : String)
    (rawCodec : Bundled)
    (next : Described → FrameIndex × IndexOrigin → Command α) :
    (Command.lookInto file rawCodec >>= fun found =>
        next found.1 found.2) =
      (do
        let described ← Described.read file rawCodec
        let found ← Command.findIndex file
        next described found) := by
  simp only [Command.lookInto, bind_assoc, pure_bind]

/- A command that reads a block looks into its file first. -/
theorem BlockRequest.begins_lookInto
    [Engines]
    (request : BlockRequest) :
    ∃ next,
      request.run =
        Command.lookInto request.file request.codec >>= next :=
  ⟨_, (Command.lookInto_bind _ _ _).symm⟩

/- A command that inspects a file looks into it first. -/
theorem InspectRequest.begins_lookInto
    [Engines]
    (request : InspectRequest) :
    ∃ next,
      request.run =
        Command.lookInto request.file .stored >>= next :=
  ⟨_, (Command.lookInto_bind _ _ _).symm⟩

/- The index that a command goes on with is the file's own. -/
def Command.FindsOwn
    [Engines]
    (file : String)
    (session : Session) : Prop :=
  ∀ rawCodec described index origin last,
    (Command.lookInto file rawCodec).perform session =
        (.ok (described, index, origin), last) →
      IsOf file session.files index

/- An index that agrees is found, or a scan finds the same. -/
theorem Command.ends_findIndex
    {file : String}
    {session : Session}
    (hAgrees : Agrees file session.files) :
    (Command.findIndex file).Ends session
      (fun found _ => IsOf file session.files found.1)
      (fun _ _ => True) := by
  have hBoth :
      (IndexFile.load file).Ends session.files
        (fun found fs =>
          (∀ index ∈ found, IsOf file session.files index) ∧
            session.files.Intact fs)
        (fun _ _ => True) := by
    rcases hLoad :
      (IndexFile.load file).perform session.files with
      ⟨e | found, fs⟩
    · exact Step.ends_of_error hLoad trivial
    · exact
        Step.ends_of_ok hLoad
          ⟨hAgrees.of_ok hLoad,
            ((ends_load session.files file).of_ok hLoad).2⟩
  refine (Command.ends_onFiles hBoth).bind ?_
  rintro (_ | index) loaded ⟨hOwn, hIntact⟩
  · have hNode :=
      (loaded.files.ends_openNode file).fails
        (fun _ _ _ => trivial)
    refine (Command.ends_onFiles hNode).bind ?_
    rintro node opened ⟨hNode, hCounted⟩
    rw [hIntact.nodeAt?_eq] at hNode
    have hBytes :
        ∀ number,
          opened.files.bytesOf number =
            session.files.bytesOf number := by
      intro number
      rw [hCounted]
      exact hIntact.bytesOf_eq number
    have hScan :=
      (opened.files.ends_withSource node Scan.stream).fails
        (fun _ _ _ => trivial)
    refine (Command.ends_onFiles hScan).bind ?_
    rintro index scanned ⟨hFound, _⟩
    apply Step.ends_of_ok rfl
    cases node with
    | directory =>
      rw [FileSystem.scan_directory] at hFound
      cases hFound
    | file number =>
      rw [FileSystem.sourceOf, hBytes] at hFound
      exact ⟨number, _, hNode, Prod.ext hFound rfl⟩
  · exact Step.ends_of_ok rfl (hOwn index rfl)

/- Looking at the beginning of a file changes nothing. -/
theorem Described.ends_read
    [Engines]
    (file : String)
    (rawCodec : Bundled)
    (session : Session) :
    (Described.read file rawCodec).Ends session
      (fun _ after => session.files.Intact after.files)
      (fun _ _ => True) := by
  have hReads :
      ∀ {α : Type} (node : Node) (reading : Reading α)
        (before : Session),
        session.files.Intact before.files →
          (Command.library
            (FileSystem.withSource node reading)).Ends before
            (fun _ after => session.files.Intact after.files)
            (fun _ _ => True) := by
    intro α node reading before hIntact
    exact
      Command.ends_onFiles
        ((before.files.ends_withSource node reading).mono
          (fun _ fs hDone => by rw [hDone.2]; exact hIntact)
          (fun _ _ _ => trivial))
  unfold Described.read
  have hOpen :
      (FileSystem.openNode file).Ends session.files
        (fun _ fs => session.files.Intact fs)
        (fun _ _ => True) :=
    (session.files.ends_openNode file).mono
      (fun _ fs hDone => by
        rw [hDone.2]
        exact FileSystem.intact_counted _)
      (fun _ _ _ => trivial)
  refine
    (Command.ends_during (Command.ends_onFiles hOpen)
      fun _ _ _ => trivial).bind ?_
  intro node opened hOpened
  refine (hReads node Scan.detect opened hOpened).bind ?_
  intro variant detected hDetected
  cases variant with
  | raw => exact Step.ends_of_ok rfl hDetected
  | container =>
    refine
      (Command.ends_during
        (hReads node Header.read detected hDetected)
        fun _ _ _ => trivial).bind ?_
    intro header read hRead
    refine
      (Command.ends_onFiles
        ((Step.ends_ofExcept
          (Bundled.codecOfMethod header.method)
          read.files).mono
          (fun _ fs hDone => hDone.2 ▸ hRead)
          (fun _ _ _ => trivial))).bind ?_
    intro codec named hNamed
    exact Step.ends_of_ok rfl hNamed

theorem Command.findsOwn_of_agrees
    [Engines]
    {file : String}
    {session : Session}
    (hAgrees :
      ∀ fs, session.files.Intact fs → Agrees file fs) :
    Command.FindsOwn file session := by
  intro rawCodec described index origin last hLook
  have hEnds :
      (Command.lookInto file rawCodec).Ends session
        (fun found _ => IsOf file session.files found.2.1)
        (fun _ _ => True) := by
    refine (Described.ends_read file rawCodec session).bind ?_
    intro described read hIntact
    refine (Command.ends_findIndex (hAgrees _ hIntact)).bind ?_
    rintro ⟨index, origin⟩ found ⟨number, rest, hNode, hScan⟩
    apply Step.ends_of_ok rfl
    rw [hIntact.nodeAt?_eq] at hNode
    rw [hIntact.bytesOf_eq] at hScan
    exact ⟨number, rest, hNode, hScan⟩
  exact hEnds.of_ok hLook

end SplitStream
