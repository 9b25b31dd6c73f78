import SplitStream.Command.Run
import SplitStream.Proofs.Command.Answering
import SplitStream.Proofs.Storage.Serving
import SplitStream.Proofs.Writer.Stretches

/-
  Requests about a file that has been compressed, one after
  another and in any order: to restore all of its data or one
  of its blocks, or to write its index once more. Each gets
  the right answer, and a request that does not write over
  the file or its index changes none of the later answers.

  Main declarations:
    * `Inquiry`
    * `Inquiry.Answered`
    * `Inquiry.AllAnswered`
    * `Archived`
    * `Archived.answers`
    * `Archived.all_answered`
-/

------------------------------------------------------------
-- Inquiries
------------------------------------------------------------

namespace SplitStream

open IndexFile

/-
  A request about a compressed file. What is restored goes to
  a target, and a codec is told in case the file is a raw
  stream.
-/
inductive Inquiry where
  | restore (target : String) (codec : Bundled)
  | block (number : Nat) (target : String) (codec : Bundled)
  | index
  deriving DecidableEq

namespace Inquiry

/- The request for a file. -/
def request
    (file : String) : Inquiry → Request
  | restore target codec =>
      .decompress
        { input := file
          output := target
          codec := codec }
  | block number target codec =>
      .readBlock
        { file := file
          block := number
          codec := codec
          output := some target }
  | index => .index file

/- The names under which something is written. -/
def names
    (file : String) : Inquiry → List String
  | restore target _ => Outtake.names target
  | block _ target _ => [target]
  | index => [temporary (pathFor file), pathFor file]

/-
  An inquiry can be made of a file: there can be a file with
  the name of its target, data is not restored over the file
  itself, and the right codec is told for a raw stream.
-/
def Allowed
    (kind : Bundled)
    (raw : Bool)
    (file : String)
    (fs : FileSystem) : Inquiry → Prop
  | restore target codec =>
      (target ≠ "-" → fs.Admits target) ∧
        fs.Avoids file (Outtake.names target) ∧
        (raw = true → codec = kind)
  | block _ target codec =>
      fs.Admits target ∧ (raw = true → codec = kind)
  | index => True

instance
    (kind : Bundled)
    (raw : Bool)
    (file : String)
    (fs : FileSystem) :
    (inquiry : Inquiry) →
      Decidable (inquiry.Allowed kind raw file fs)
  | restore target codec =>
      inferInstanceAs
        (Decidable
          ((target ≠ "-" → fs.Admits target) ∧
            fs.Avoids file (Outtake.names target) ∧
            (raw = true → codec = kind)))
  | block _ target codec =>
      inferInstanceAs
        (Decidable
          (fs.Admits target ∧ (raw = true → codec = kind)))
  | index => isTrue trivial

/-
  An inquiry leaves the file and its index to later ones: it
  writes under none of their names, or it writes the index.
-/
def Sparing
    (file : String)
    (fs : FileSystem)
    (inquiry : Inquiry) : Prop :=
  inquiry = .index ∨
    ∀ name ∈ [file, pathFor file, legacyPathFor file],
      fs.Avoids name (inquiry.names file)

/-
  The right answer to an inquiry of a file with the given
  data, in blocks of one size, and the given index. There is
  a failure only for a block that the data does not reach.
-/
def Answered
    (data stored : Bytes)
    (size : Nat)
    (file : String)
    (before : Session)
    (outcome : Except Failure Unit × Session) : Inquiry → Prop
  | restore target _ =>
      outcome.1 = .ok () ∧
        Outtake.Restored target data before outcome.2
  | block number target _ =>
      let count := (data.length + size - 1) / size
      if number < count then
        outcome.1 = .ok () ∧
          outcome.2.files.HasFile target
            ((data.drop (number * size)).take size)
      else
        outcome.1 = .error (.blockBeyond number count) ∧
          before.files.Intact outcome.2.files
  | index =>
      outcome.1 = .ok () ∧
        outcome.2.files.HasFile (pathFor file) stored

/-
  Inquiries are carried out one after another, and each gets
  the right answer, up to one that writes over the file or
  its index.
-/
def AllAnswered
    [Engines]
    (data stored : Bytes)
    (size : Nat)
    (file : String) : List Inquiry → Session → Prop
  | [], _ => True
  | inquiry :: rest, session =>
      let outcome := (inquiry.request file).run.perform session
      inquiry.Answered data stored size file session outcome ∧
        session.files.Alters (inquiry.names file)
          outcome.2.files ∧
        (inquiry.Sparing file session.files →
          AllAnswered data stored size file rest outcome.2)

variable
  {kind : Bundled} {raw : Bool} {file : String}
  {fs fs' : FileSystem} {inquiry : Inquiry}

/- What is allowed depends on nothing but the directories. -/
theorem Allowed.sameDirectories
    (h : inquiry.Allowed kind raw file fs)
    (hSame : fs.SameDirectories fs') :
    inquiry.Allowed kind raw file fs' := by
  cases inquiry with
  | restore target codec =>
    rcases h with ⟨hAdmits, hAvoids, hKind⟩
    exact
      ⟨fun hDash => hSame.admits (hAdmits hDash),
        hSame.avoids hAvoids, hKind⟩
  | block number target codec =>
    rcases h with ⟨hAdmits, hKind⟩
    exact ⟨hSame.admits hAdmits, hKind⟩
  | index => trivial

end Inquiry

------------------------------------------------------------
-- Archives
------------------------------------------------------------

/-
  In a sound tree where nothing fails, a file has a stream,
  and no index but its own can be found for it.
-/
structure Archived
    [Engines]
    (kind : Bundled)
    (raw : Bool)
    (file : String)
    (bytes : Bytes)
    (blocks : List Bytes)
    (index : FrameIndex)
    (fs : FileSystem) : Prop where
  sound : fs.Sound
  calm : fs.Calm
  streamed : Streamed kind raw bytes blocks index
  has : fs.HasFile file bytes
  known : IndexFile.Known file index fs
  index_admits : fs.Admits (pathFor file)
  temporary_admits : fs.Admits (temporary (pathFor file))

namespace Archived

variable
  {kind : Bundled} {raw : Bool} {file : String} {bytes : Bytes}
  {blocks : List Bytes} {index : FrameIndex}
  {fs fs' : FileSystem} {session : Session}

/- An index that is known stays so if its names are spared. -/
theorem known_of_alters
    {names : List String}
    (h : IndexFile.Known file index fs)
    (hAlters : fs.Alters names fs')
    (hIndex : fs.Avoids (pathFor file) names)
    (hLegacy : fs.Avoids (legacyPathFor file) names) :
    IndexFile.Known file index fs' := by
  rcases h with hHas | ⟨hAbsent, hAdmits, hAdmits'⟩
  · exact .inl (hAlters.hasFile hHas hIndex)
  · exact
      .inr
        ⟨⟨(hAlters.nodes _ hIndex).trans hAbsent.index,
            (hAlters.nodes _ hLegacy).trans hAbsent.legacy⟩,
          hAlters.directories.admits hAdmits,
          hAlters.directories.admits hAdmits'⟩

/- The archive stays one if the names around it are spared. -/
theorem alters
    [Engines]
    {names : List String}
    (h : Archived kind raw file bytes blocks index fs)
    (hAlters : fs.Alters names fs')
    (hAvoids :
      ∀ name ∈ [file, pathFor file, legacyPathFor file],
        fs.Avoids name names) :
    Archived kind raw file bytes blocks index fs' where
  sound := hAlters.sound h.sound
  calm := hAlters.calm h.calm
  streamed := h.streamed
  has := hAlters.hasFile h.has (hAvoids file (by simp))
  known :=
    known_of_alters h.known hAlters (hAvoids _ (by simp))
      (hAvoids _ (by simp))
  index_admits := hAlters.directories.admits h.index_admits
  temporary_admits :=
    hAlters.directories.admits h.temporary_admits

/- It stays one if its index has been written. -/
theorem indexed
    [Engines]
    (h : Archived kind raw file bytes blocks index fs)
    (hAlters :
      fs.Alters [temporary (pathFor file), pathFor file] fs')
    (hHas : fs'.HasFile (pathFor file) index.toBytes) :
    Archived kind raw file bytes blocks index fs' where
  sound := hAlters.sound h.sound
  calm := hAlters.calm h.calm
  streamed := h.streamed
  has := hAlters.hasFile h.has (avoids_index h.has.admits)
  known := .inl hHas
  index_admits := hHas.admits
  temporary_admits :=
    hAlters.directories.admits h.temporary_admits

theorem shows
    [Engines]
    (h :
      Archived kind raw file bytes blocks index session.files) :
    ∃ number, session.Shows file number bytes := by
  rcases h.has with ⟨number, hFile, hBytes⟩
  exact ⟨number, h.calm, hFile, hBytes⟩

------------------------------------------------------------
-- Answers
------------------------------------------------------------

variable {data : Bytes} {size : Nat} {inquiry : Inquiry}

/- All data is restored. -/
theorem answers_restore
    [Engines]
    {target : String}
    {codec : Bundled}
    (h :
      Archived kind raw file bytes blocks index session.files)
    (hDivided : Bytes.DividedInto size data blocks)
    (hAllowed :
      (Inquiry.restore target codec).Allowed kind raw file
        session.files) :
    let inquiry : Inquiry := .restore target codec
    let outcome := (inquiry.request file).run.perform session
    inquiry.Answered data index.toBytes size file session
        outcome ∧
      session.files.Alters (inquiry.names file)
        outcome.2.files := by
  intro inquiry outcome
  rcases h.shows with ⟨number, hShows⟩
  rcases hAllowed with ⟨hAdmits, hAvoids, hKind⟩
  let request : DecompressRequest :=
    { input := file
      output := target
      codec := codec }
  have hRun :=
    request.succeeds_run h.sound hShows h.streamed hKind hAdmits
      hAvoids
  rcases hRun.exists_ok with
    ⟨_, after, hPerform, hRestored, hAlters⟩
  rw [hDivided.joined] at hRestored
  have hOutcome : outcome = (.ok (), after) := hPerform
  rw [hOutcome]
  exact ⟨⟨rfl, hRestored⟩, hAlters⟩

/- A block is restored if there is one, and missed otherwise. -/
theorem answers_block
    [Engines]
    {k : Nat}
    {target : String}
    {codec : Bundled}
    (h :
      Archived kind raw file bytes blocks index session.files)
    (hDivided : Bytes.DividedInto size data blocks)
    (hSize : 0 < size)
    (hLength : bytes.length ≤ FileSystem.positionLimit)
    (hAllowed :
      (Inquiry.block k target codec).Allowed kind raw file
        session.files) :
    let inquiry : Inquiry := .block k target codec
    let outcome := (inquiry.request file).run.perform session
    inquiry.Answered data index.toBytes size file session
        outcome ∧
      session.files.Alters (inquiry.names file)
        outcome.2.files := by
  intro inquiry outcome
  rcases h.shows with ⟨number, hShows⟩
  rcases hAllowed with ⟨hAdmits, hKind⟩
  let request : BlockRequest :=
    { file := file
      block := k
      codec := codec
      output := some target }
  have hCount := hDivided.count
  by_cases hInside : k < blocks.length
  · have hBlock : blocks[k]? = some blocks[k] :=
      List.getElem?_eq_getElem hInside
    have hRun :=
      request.succeeds_run h.sound hShows h.streamed hLength
        hKind h.known rfl hAdmits hBlock
    rcases hRun.exists_ok with
      ⟨_, after, hPerform, hHas, hAlters⟩
    rw [hDivided.block_eq hSize hBlock] at hHas
    rw [hCount] at hInside
    have hOutcome : outcome = (.ok (), after) := hPerform
    rw [hOutcome]
    refine ⟨?_, hAlters⟩
    simp only [inquiry, Inquiry.Answered, if_pos hInside]
    exact ⟨trivial, hHas⟩
  · have hRun :=
      request.fails_run hShows h.streamed hLength hKind h.known
        (Nat.not_lt.mp hInside)
    rcases hPerform : request.run.perform session with
      ⟨failure | _, after⟩
    · rcases hRun.of_error hPerform with ⟨hFailure, hCounts⟩
      have hAlters := hCounts.files.alters [target]
      rw [hCount] at hInside hFailure
      have hOutcome : outcome = (.error failure, after) :=
        hPerform
      rw [hOutcome, hFailure]
      refine ⟨?_, hAlters⟩
      simp only [inquiry, Inquiry.Answered, if_neg hInside]
      exact ⟨rfl, hCounts.files.intact⟩
    · exact (hRun.of_ok hPerform).elim

/- The index is written, and the archive has it from then on. -/
theorem answers_index
    [Engines]
    (h :
      Archived kind raw file bytes blocks index session.files) :
    let outcome :=
      (Inquiry.index.request file).run.perform session
    Inquiry.index.Answered data index.toBytes size file session
        outcome ∧
      session.files.Alters (Inquiry.index.names file)
        outcome.2.files ∧
      Archived kind raw file bytes blocks index
        outcome.2.files := by
  intro outcome
  rcases h.shows with ⟨number, hShows⟩
  have hRun :=
    Command.succeeds_writeIndex h.sound hShows h.streamed
      h.index_admits h.temporary_admits
  rcases hRun.exists_ok with ⟨_, after, hPerform, hHas, hAlters⟩
  have hOutcome : outcome = (.ok (), after) := hPerform
  rw [hOutcome]
  exact ⟨⟨rfl, hHas⟩, hAlters, h.indexed hAlters hHas⟩

/-
  One inquiry gets the right answer, and alters no file but
  those it writes. If these are not the archive, it stays as
  it is.
-/
theorem answers
    [Engines]
    (h :
      Archived kind raw file bytes blocks index session.files)
    (hDivided : Bytes.DividedInto size data blocks)
    (hSize : 0 < size)
    (hLength : bytes.length ≤ FileSystem.positionLimit)
    (hAllowed :
      inquiry.Allowed kind raw file session.files) :
    let outcome := (inquiry.request file).run.perform session
    inquiry.Answered data index.toBytes size file session
        outcome ∧
      session.files.Alters (inquiry.names file)
        outcome.2.files ∧
      (inquiry.Sparing file session.files →
        Archived kind raw file bytes blocks index
          outcome.2.files) := by
  intro outcome
  have hSpared :
      session.files.Alters (inquiry.names file)
          outcome.2.files →
        inquiry ≠ .index →
        inquiry.Sparing file session.files →
          Archived kind raw file bytes blocks index
            outcome.2.files := by
    rintro hAlters hOther (hIndex | hAvoids)
    · exact absurd hIndex hOther
    · exact h.alters hAlters hAvoids
  cases inquiry with
  | restore target codec =>
    rcases h.answers_restore hDivided hAllowed with
      ⟨hAnswered, hAlters⟩
    exact ⟨hAnswered, hAlters, hSpared hAlters (by simp)⟩
  | block k target codec =>
    rcases h.answers_block hDivided hSize hLength hAllowed with
      ⟨hAnswered, hAlters⟩
    exact ⟨hAnswered, hAlters, hSpared hAlters (by simp)⟩
  | index =>
    rcases h.answers_index with ⟨hAnswered, hAlters, hArchived⟩
    exact ⟨hAnswered, hAlters, fun _ => hArchived⟩

/-
  All inquiries get the right answers, until one writes over
  the archive.
-/
theorem all_answered
    [Engines]
    {inquiries : List Inquiry}
    (h :
      Archived kind raw file bytes blocks index session.files)
    (hDivided : Bytes.DividedInto size data blocks)
    (hSize : 0 < size)
    (hLength : bytes.length ≤ FileSystem.positionLimit)
    (hAllowed :
      ∀ inquiry ∈ inquiries,
        inquiry.Allowed kind raw file session.files) :
    Inquiry.AllAnswered data index.toBytes size file inquiries
      session := by
  induction inquiries generalizing session with
  | nil => trivial
  | cons inquiry rest ih =>
    rcases h.answers hDivided hSize hLength
      (hAllowed inquiry List.mem_cons_self) with
      ⟨hAnswered, hAlters, hAfter⟩
    refine ⟨hAnswered, hAlters, ?_⟩
    intro hSparing
    apply ih (hAfter hSparing)
    intro later hLater
    exact
      (hAllowed later
        (List.mem_cons_of_mem _ hLater)).sameDirectories
        hAlters.directories

end Archived

end SplitStream
