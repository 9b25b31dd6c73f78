import SplitStream.Proofs.Command.Endings
import SplitStream.Proofs.Storage.IndexFiles

/-
  Files that are written with an index beside them. Until it
  is published, the index has a temporary name and nothing
  stands under the names at which one would be found.

  Main declarations:
    * `IndexFile.Begun`
    * `IndexFile.ends_create`
    * `IndexFile.Begun.removeIfPresent`
    * `IndexFile.Paired`
    * `IndexFile.Begun.createIndex`
    * `IndexFile.Paired.publish`
    * `IndexFile.Paired.hidden_of_publish`
-/

------------------------------------------------------------
-- Begun Files
------------------------------------------------------------

namespace SplitStream

namespace IndexFile

variable
  {file : String} {data : OutputStream} {index : IndexFile}
  {number indexNumber : Nat} {bytes : Bytes}
  {fs fs' : FileSystem}

/- A stream has been opened to a file of a sound tree. -/
structure Begun
    (file : String)
    (data : OutputStream)
    (number : Nat)
    (fs : FileSystem) : Prop where
  sound : fs.Sound
  place :
    ∃ place,
      fs.place? file = some place ∧
      place.isDirectory = false ∧
      fs.node? place.names = some (.file number)
  used : data.number < fs.next

theorem Begun.sameNames
    (h : Begun file data number fs)
    (hSame : fs.SameNames fs') :
    Begun file data number fs' where
  sound := hSame.sound h.sound
  place := by
    rcases h.place with ⟨place, hPlace, hFile, hNode⟩
    exact
      ⟨place, (hSame.place?_eq file).trans hPlace, hFile,
        (hSame.node?_eq place.names).trans hNode⟩
  used := by
    rw [hSame.next]
    exact h.used

theorem Begun.nodeAt?
    (h : Begun file data number fs) :
    fs.nodeAt? file = some (.file number) := by
  rcases h.place with ⟨place, hPlace, _, hNode⟩
  exact (FileSystem.nodeAt?_of_place? hPlace).trans hNode

theorem Begun.apart
    (h : Begun file data number fs)
    {suffix : String}
    (hSuffix : Path.Suffix suffix) :
    fs.Apart file (file ++ suffix) := by
  rcases h.place with ⟨place, hPlace, hFile, _⟩
  exact FileSystem.apart_append hPlace hFile hSuffix

theorem Begun.apart_suffixes
    (h : Begun file data number fs)
    {left right : String}
    (hLeft : Path.Suffix left)
    (hRight : Path.Suffix right)
    (hDiffer : left ≠ right) :
    fs.Apart (file ++ left) (file ++ right) := by
  rcases h.place with ⟨place, hPlace, hFile, _⟩
  exact
    FileSystem.apart_suffixes hPlace hFile hLeft hRight hDiffer

/- Opening a file changes nothing under its longer names. -/
theorem ends_create
    (hSound : fs.Sound)
    (file : String) :
    (OutputStream.create file).Ends fs
      (fun data fs' =>
        ∃ number,
          Begun file data number fs' ∧
          data.Holds number [] fs' ∧
          fs'.faults = fs.faults ∧
          ∀ suffix,
            Path.Suffix suffix →
              fs'.nodeAt? (file ++ suffix) =
                fs.nodeAt? (file ++ suffix))
      (fun _ fs' => fs' = fs.counted) := by
  rcases OutputStream.create_cases hSound file with
    ⟨e, hCreate, _⟩ |
      ⟨data, number, place, fs', hCreate, hPlace, hFile, hCreated⟩
  · exact Step.ends_of_error hCreate rfl
  · have hAfter : fs'.place? file = some place :=
      (hCreated.changes.sameDirectories.place?_eq file).trans hPlace
    refine
      Step.ends_of_ok hCreate
        ⟨number, ?_, ?_, hCreated.faults, ?_⟩
    · exact
        { sound := hCreated.sound
          place := ⟨place, hAfter, hFile, hCreated.entry⟩
          used := hCreated.used }
    · refine ⟨.empty, ?_, ?_⟩
      · rw [hCreated.empty]
        exact hCreated.state
      · rw [hCreated.empty, Tape.toBytes_empty, List.append_nil]
    · intro suffix hSuffix
      apply hCreated.changes.nodeAt?_eq
      intro further hFurther
      exact
        (FileSystem.apart_append hPlace hFile hSuffix place hPlace
          further hFurther).symm

/- Removing an index leaves the file that has been begun. -/
theorem Begun.removeIfPresent
    (h : Begun file data number fs)
    (hHolds : data.Holds number bytes fs)
    (hLegacy : fs.nodeAt? (legacyPathFor file) = none)
    (hFault : fs.faults fs.step ≠ some .notFound) :
    (ContainerFile.removeIfPresent (pathFor file)).Ends fs
      (fun _ fs' =>
        Begun file data number fs' ∧
        data.Holds number bytes fs' ∧
        Absent file fs')
      (fun _ fs' => fs' = fs.counted) := by
  rcases ContainerFile.removeIfPresent_cases (pathFor file)
    fun _ => hFault with
    ⟨e, hRemove, _⟩ | ⟨fs', hRemove, hThins, hNone, hOthers⟩
  · exact Step.ends_of_error hRemove rfl
  · have hNode : fs'.nodeAt? file = some (.file number) :=
      (hOthers file (h.apart suffix_index)).trans h.nodeAt?
    refine
      Step.ends_of_ok hRemove
        ⟨?_, ?_, hNone, hThins.nodeAt?_eq_none hLegacy⟩
    · rcases h.place with ⟨place, hPlace, hFile, _⟩
      have hAfter : fs'.place? file = some place :=
        (hThins.sameDirectories.place?_eq file).trans hPlace
      rw [FileSystem.nodeAt?_of_place? hAfter] at hNode
      exact
        { sound := hThins.sound h.sound
          place := ⟨place, hAfter, hFile, hNode⟩
          used := by
            rw [hThins.next]
            exact h.used }
    · rcases hHolds with ⟨buffer, hState, hBytes⟩
      have hSame : fs'.bytesOf number = fs.bytesOf number := by
        unfold FileSystem.bytesOf
        rw [hThins.files]
      refine ⟨buffer, ?_, ?_⟩
      · rw [hThins.streams, hSame]
        exact hState
      · rw [hSame]
        exact hBytes

------------------------------------------------------------
-- Accompanied Files
------------------------------------------------------------

/-
  Beside a file that has been begun, an index is written to
  a file of its own under its temporary name.
-/
structure Paired
    (file : String)
    (data : OutputStream)
    (index : IndexFile)
    (number indexNumber : Nat)
    (fs : FileSystem) : Prop where
  begun : Begun file data number fs
  target : index.target = pathFor file
  temporary :
    fs.nodeAt? (temporary (pathFor file)) =
      some (.file indexNumber)
  streams : data.number ≠ index.stream.number
  files : number ≠ indexNumber

theorem Paired.sameNames
    (h : Paired file data index number indexNumber fs)
    (hSame : fs.SameNames fs') :
    Paired file data index number indexNumber fs' where
  begun := h.begun.sameNames hSame
  target := h.target
  temporary := (hSame.nodeAt?_eq _).trans h.temporary
  streams := h.streams
  files := h.files

/-
  Beside a file that has been begun, an index is written
  under its temporary name. No index can be found yet.
-/
structure Accompanied
    (file : String)
    (data : OutputStream)
    (index : IndexFile)
    (number indexNumber : Nat)
    (fs : FileSystem) : Prop where
  begun : Begun file data number fs
  absent : Absent file fs
  target : index.target = pathFor file
  temporary :
    fs.nodeAt? (temporary (pathFor file)) =
      some (.file indexNumber)
  streams : data.number ≠ index.stream.number
  files : number ≠ indexNumber

theorem Paired.accompanied
    (h : Paired file data index number indexNumber fs)
    (hAbsent : Absent file fs) :
    Accompanied file data index number indexNumber fs :=
  { h with absent := hAbsent }

theorem Accompanied.paired
    (h : Accompanied file data index number indexNumber fs) :
    Paired file data index number indexNumber fs :=
  { h with }

theorem Accompanied.sameNames
    (h : Accompanied file data index number indexNumber fs)
    (hSame : fs.SameNames fs') :
    Accompanied file data index number indexNumber fs' :=
  (h.paired.sameNames hSame).accompanied
    (h.absent.sameNames hSame)

/- An index that is begun takes no other name from a file. -/
theorem Begun.nodeAt?_created
    (h : Begun file data number fs)
    {stream : OutputStream}
    {indexNumber : Nat}
    {place : FileSystem.Place}
    (hPlace :
      fs.place? (IndexFile.temporary (pathFor file)) = some place)
    (hCreated : stream.Created indexNumber place.names fs fs')
    {suffix : String}
    (hSuffix : Path.Suffix suffix)
    (hDiffer : suffix ≠ ".idx.tmp") :
    fs'.nodeAt? (file ++ suffix) = fs.nodeAt? (file ++ suffix) := by
  apply hCreated.changes.nodeAt?_eq
  intro further hFurther
  rw [temporary_pathFor] at hPlace
  exact
    h.apart_suffixes hSuffix suffix_temporary hDiffer further
      hFurther place hPlace

/-
  An index is begun in a file of its own, and the stream
  beside it holds what it held.
-/
theorem Begun.createIndex
    (h : Begun file data number fs) :
    (IndexFile.create (pathFor file)).Ends fs
      (fun index fs' =>
        ∃ indexNumber,
          Paired file data index number indexNumber fs' ∧
          (∀ suffix,
            Path.Suffix suffix →
            suffix ≠ ".idx.tmp" →
              fs'.nodeAt? (file ++ suffix) =
                fs.nodeAt? (file ++ suffix)) ∧
          (∀ bytes,
            data.Holds number bytes fs →
              data.Holds number bytes fs') ∧
          index.stream.Holds indexNumber [] fs')
      (fun _ fs' => fs' = fs.counted) := by
  unfold IndexFile.create
  rcases OutputStream.create_cases h.sound
    (IndexFile.temporary (pathFor file)) with
    ⟨e, hCreate, _⟩ |
      ⟨stream, indexNumber, place, fs', hCreate, hPlace, hFile,
        hCreated⟩
  · exact
      Step.ends_of_error (Step.perform_bind_of_error hCreate) rfl
  rcases h.place with ⟨own, hOwn, hOwnFile, hNode⟩
  have hApart : own.names ≠ place.names := by
    rw [temporary_pathFor] at hPlace
    exact h.apart suffix_temporary own hOwn place hPlace
  have hSame := hCreated.changes.sameDirectories
  have hNode' : fs'.node? own.names = some (.file number) :=
    (hCreated.changes.others own.names hApart).trans hNode
  have hFiles : number ≠ indexNumber := by
    intro hEq
    rw [hEq] at hNode'
    exact
      hApart
        (hCreated.sound.distinct _ _ _ hNode' hCreated.entry)
  have hStreams : data.number ≠ stream.number :=
    Nat.ne_of_lt (Nat.lt_of_lt_of_le h.used hCreated.unused)
  have hBytes := hCreated.bytes number hFiles
  refine
    Step.ends_of_ok (Step.perform_bind_of_ok hCreate)
      ⟨indexNumber, ?_, fun _ => h.nodeAt?_created hPlace hCreated,
        ?_, ?_⟩
  · exact
      { begun :=
          { sound := hCreated.sound
            place :=
              ⟨own, (hSame.place?_eq file).trans hOwn, hOwnFile,
                hNode'⟩
            used :=
              Nat.lt_of_lt_of_le h.used
                (Nat.le_trans hCreated.unused
                  (Nat.le_of_lt hCreated.used)) }
        target := rfl
        temporary := by
          rw [← hSame.place?_eq] at hPlace
          rw [FileSystem.nodeAt?_of_place? hPlace]
          exact hCreated.entry
        streams := hStreams
        files := hFiles }
  · rintro bytes ⟨buffer, hState, hAll⟩
    refine ⟨buffer, ?_, ?_⟩
    · rw [hCreated.streams data.number hStreams, hBytes]
      exact hState
    · rw [hBytes]
      exact hAll
  · refine ⟨.empty, ?_, ?_⟩
    · rw [hCreated.empty]
      exact hCreated.state
    · rw [hCreated.empty, Tape.toBytes_empty, List.append_nil]

------------------------------------------------------------
-- Published Indexes
------------------------------------------------------------

/-
  No index can be found for a file, or the one that a scan of
  the file finds.
-/
def Tidy
    (file : String)
    (fs : FileSystem) : Prop :=
  Absent file fs ∨ Present file fs

theorem Tidy.agrees
    (h : Tidy file fs)
    (hLength :
      ∀ number,
        (fs.bytesOf number).length ≤ FileSystem.positionLimit) :
    Agrees file fs := by
  rcases h with hAbsent | hPresent
  · exact agrees_of_absent hAbsent
  · exact agrees_of_present hPresent hLength

/- What stands beside a file depends on names and bytes only. -/
theorem Whole.congr
    (h : Whole file fs)
    (hNodes : ∀ text, fs'.nodeAt? text = fs.nodeAt? text)
    (hBytes : ∀ number, fs'.bytesOf number = fs.bytesOf number) :
    Whole file fs' := by
  rcases h with
    ⟨number, indexNumber, index, hFile, hIndex, hScan, hStored⟩
  refine
    ⟨number, indexNumber, index, (hNodes _).trans hFile,
      (hNodes _).trans hIndex, ?_, ?_⟩
  · rw [hBytes]
    exact hScan
  · rw [hBytes, hBytes]
    exact hStored

theorem Present.congr
    (h : Present file fs)
    (hNodes : ∀ text, fs'.nodeAt? text = fs.nodeAt? text)
    (hBytes : ∀ number, fs'.bytesOf number = fs.bytesOf number) :
    Present file fs' where
  legacy := (hNodes _).trans h.legacy
  index := Whole.congr h.index hNodes hBytes

theorem Tidy.intact
    (h : Tidy file fs)
    (hIntact : fs.Intact fs') :
    Tidy file fs' := by
  rcases h with hAbsent | hPresent
  · left
    exact
      ⟨(hIntact.nodeAt?_eq _).trans hAbsent.index,
        (hIntact.nodeAt?_eq _).trans hAbsent.legacy⟩
  · right
    exact hPresent.congr hIntact.nodeAt?_eq hIntact.bytesOf_eq

/- A settled stream that is given up leaves what is there. -/
theorem Whole.discard
    (h : Whole file fs)
    (hSettled : data.Settled number bytes fs) :
    Whole file (data.discard.final fs) := by
  rcases OutputStream.discard_of_settled hSettled with
    ⟨hTouches, hBytes⟩
  apply h.congr hTouches.sameNames.nodeAt?_eq
  intro other
  by_cases hOther : other = number
  · rw [hOther, hBytes, hSettled.bytes]
  · exact hTouches.bytes other hOther

/- The name that a hidden index has not got yet is free. -/
theorem Paired.free
    (h : Paired file data index number indexNumber fs)
    (hHidden : Hidden file fs) :
    ∃ old,
      fs.place? (IndexFile.temporary index.target) = some old ∧
      fs.node? old.names = some (.file indexNumber) ∧
      ∀ new ∈ fs.place? index.target,
        old.names ≠ new.names ∧
          fs.node? new.names ≠ some .directory := by
  have hTemporary := h.temporary
  rw [← h.target] at hTemporary
  rcases FileSystem.place?_of_nodeAt? hTemporary with
    ⟨old, hOld, hNode⟩
  refine ⟨old, hOld, hNode, ?_⟩
  intro new hNew
  have hNone : fs.node? new.names = none := by
    rw [← FileSystem.nodeAt?_of_place? hNew, h.target]
    exact hHidden
  refine ⟨?_, by simp [hNone]⟩
  intro hSame
  rw [hSame, hNone] at hNode
  contradiction

/-
  The index of a settled file is published, or no name has
  changed. The stream of the file is given up behind it.
-/
theorem Paired.publish
    (h : Paired file data index number indexNumber fs)
    (hHidden : Hidden file fs)
    {stored : Bytes}
    {found : FrameIndex}
    (hData : data.Settled number bytes fs)
    (hIndex : index.stream.Settled indexNumber stored fs)
    (hScan : Scan.Finds Scan.stream bytes found)
    (hStored : found.StoredAs stored bytes.length) :
    index.publish.Ends fs
      (fun _ fs' =>
        Whole file (data.discard.final fs') ∧
          (data.discard.final fs').nodeAt? (legacyPathFor file) =
            fs.nodeAt? (legacyPathFor file))
      (fun _ fs' => fs.SameNames fs') := by
  rcases h.free hHidden with ⟨old, hOld, hNode, hFree⟩
  rcases publish_cases hIndex hOld hNode hFree with
    ⟨e, fs', hPublish, hSame, _⟩ |
      ⟨new, middle, hPublish, hNew, hTouches, hBytes⟩
  · exact Step.ends_of_error hPublish hSame
  · have hBegun := h.begun.sameNames hTouches.sameNames
    rcases hFree new hNew with ⟨hDiffers, hOther⟩
    rw [← hTouches.sameNames.place?_eq] at hOld hNew
    rw [← hTouches.sameNames.node?_eq] at hNode hOther
    rcases FileSystem.nodeAt?_moved hBegun.sound hOld hNode
      hNew hOther hDiffers with ⟨hMoved, _, hOthers⟩
    rw [h.target] at hMoved hOthers
    rw [temporary_pathFor] at hOthers
    have hSettled := hTouches.settled h.streams h.files hData
    let last := middle.moved old.names new.names
    have hEnd : data.Settled number bytes last :=
      ⟨hSettled.state, hSettled.bytes⟩
    have hStore : last.bytesOf indexNumber = stored := hBytes
    have hWhole : Whole file last := by
      refine
        ⟨number, indexNumber, found, ?_, hMoved, ?_, ?_⟩
      · rw [← hBegun.nodeAt?]
        exact
          hOthers _ (hBegun.apart suffix_temporary)
            (hBegun.apart suffix_index)
      · rw [hEnd.bytes]
        exact hScan
      · rw [hEnd.bytes, hStore]
        exact hStored
    have hLegacy :
        last.nodeAt? (legacyPathFor file) =
          middle.nodeAt? (legacyPathFor file) :=
      hOthers _
        (hBegun.apart_suffixes suffix_legacy suffix_temporary
          (by decide))
        (hBegun.apart_suffixes suffix_legacy suffix_index
          (by decide))
    have hGivenUp := OutputStream.sameNames_discard data last
    refine Step.ends_of_ok hPublish ⟨hWhole.discard hEnd, ?_⟩
    rw [hGivenUp.nodeAt?_eq, hLegacy,
      hTouches.sameNames.nodeAt?_eq]

/-
  The index of a settled file is published, or it is found
  nowhere.
-/
theorem Accompanied.publish
    (h : Accompanied file data index number indexNumber fs)
    {stored : Bytes}
    {found : FrameIndex}
    (hData : data.Settled number bytes fs)
    (hIndex : index.stream.Settled indexNumber stored fs)
    (hScan : Scan.Finds Scan.stream bytes found)
    (hStored : found.StoredAs stored bytes.length) :
    index.publish.Ends fs
      (fun _ fs' => Present file (data.discard.final fs'))
      (fun _ fs' => Absent file (data.discard.final fs')) := by
  apply (h.paired.publish h.absent.index hData hIndex hScan
    hStored).mono
  · rintro _ fs' ⟨hWhole, hLegacy⟩
    exact ⟨hLegacy.trans h.absent.legacy, hWhole⟩
  · intro _ fs' hSame
    exact (h.absent.sameNames hSame).discard data

/- A publication that fails leaves an index hidden. -/
theorem Paired.hidden_of_publish
    (h : Paired file data index number indexNumber fs)
    (hHidden : Hidden file fs) :
    index.publish.Ends fs
      (fun _ _ => True)
      (fun _ fs' => Hidden file fs') := by
  have hFlush :
      index.stream.flushBuffer.Ends fs
        (fun _ fs' => fs.SameNames fs')
        (fun _ fs' => fs.SameNames fs') :=
    Step.ends_of_final
      (FileSystem.holds_final
        ((FileSystem.likeness_sameNames fs).flushBuffer _)
        (.refl fs))
  have hStore :
      (index.stream.flushBuffer >>= fun _ =>
          index.stream.sync).Ends fs
        (fun _ fs' => fs.SameNames fs')
        (fun _ fs' => fs.SameNames fs') := by
    apply hFlush.bind
    intro _ flushed hSame
    exact
      Step.ends_of_final
        (FileSystem.holds_final
          (FileSystem.likeness_sameNames fs).attempt hSame)
  have hStored :=
    hStore.ensuring
      (fun _ last hSame =>
        hSame.trans
          (OutputStream.sameNames_discard index.stream last))
      (fun _ last hSame =>
        hHidden.sameNames
          (hSame.trans
            (OutputStream.sameNames_discard index.stream last)))
  refine hStored.bind ?_
  intro _ last hSame
  have hHidden' := hHidden.sameNames hSame
  rcases (h.sameNames hSame).free hHidden' with
    ⟨old, hOld, hNode, hFree⟩
  rcases FileSystem.rename_cases hOld hNode hFree with
    ⟨e, hRename, _⟩ | ⟨new, hRename, _⟩
  · exact
      Step.ends_of_error (Step.perform_bind_of_error hRename)
        (hHidden'.sameNames (FileSystem.sameNames_counted last))
  · exact
      Step.ends_of_ok (Step.perform_bind_of_ok hRename) trivial

end IndexFile

end SplitStream
