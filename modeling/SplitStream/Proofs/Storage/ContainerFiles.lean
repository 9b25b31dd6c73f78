import SplitStream.Proofs.Storage.FileWriters

/-
  Container files from their creation to their close. An
  index of an earlier file goes before the file is touched,
  and the new one gets its name behind everything else, so
  that at no point a wrong index can be found.

  Main declarations:
    * `ContainerFile.Underway`
    * `ContainerFile.Started`
    * `ContainerFile.ends_begin`
    * `ContainerFile.ends_create`
    * `ContainerFile.Started.close`
-/

------------------------------------------------------------
-- Started Containers
------------------------------------------------------------

namespace SplitStream

namespace ContainerFile

open IndexFile

variable {path : String} {fs fs' : FileSystem}

/-
  A container is written, alone or with an index beside it
  that cannot be found yet.
-/
inductive Underway
    (path : String)
    (fs : FileSystem) : ContainerFile → Prop where
  | alone
      {number : Nat}
      {data : OutputStream}
      {writer : ContainerWriter FileSystem}
      {codec : Codec}
      {fields : Header}
      {kept : Bytes}
      (begun : Begun path data number fs)
      (hidden : Hidden path fs)
      (keeps :
        writer.Keeps (data.receiver number) codec fields fs.calm
          false false kept) :
      Underway path fs ⟨writer, data, none⟩
  | accompanied
      {number indexNumber : Nat}
      {data : OutputStream}
      {index : IndexFile}
      {writer : ContainerWriter FileSystem}
      {codec : Codec}
      {fields : Header}
      {kept : Bytes}
      (paired : Paired path data index number indexNumber fs)
      (hidden : Hidden path fs)
      (keeps :
        writer.Keeps
          (OutputStream.receivers paired.streams paired.files)
          codec fields fs.calm true false kept) :
      Underway path fs ⟨writer, data, some index⟩

/- So it is, and no older index can be found either. -/
inductive Started
    (path : String)
    (fs : FileSystem) : ContainerFile → Prop where
  | alone
      {number : Nat}
      {data : OutputStream}
      {writer : ContainerWriter FileSystem}
      {codec : Codec}
      {fields : Header}
      {kept : Bytes}
      (begun : Begun path data number fs)
      (absent : Absent path fs)
      (keeps :
        writer.Keeps (data.receiver number) codec fields fs.calm
          false false kept) :
      Started path fs ⟨writer, data, none⟩
  | accompanied
      {number indexNumber : Nat}
      {data : OutputStream}
      {index : IndexFile}
      {writer : ContainerWriter FileSystem}
      {codec : Codec}
      {fields : Header}
      {kept : Bytes}
      (beside :
        Accompanied path data index number indexNumber fs)
      (keeps :
        writer.Keeps
          (OutputStream.receivers beside.streams beside.files)
          codec fields fs.calm true false kept) :
      Started path fs ⟨writer, data, some index⟩

variable {container : ContainerFile}

theorem Underway.started
    (h : Underway path fs container)
    (hLegacy : fs.nodeAt? (legacyPathFor path) = none) :
    Started path fs container := by
  cases h with
  | alone hBegun hHidden hKeeps =>
    exact .alone hBegun ⟨hHidden, hLegacy⟩ hKeeps
  | accompanied hPaired hHidden hKeeps =>
    exact
      .accompanied (hPaired.accompanied ⟨hHidden, hLegacy⟩)
        hKeeps

theorem Started.absent
    (h : Started path fs container) :
    Absent path fs := by
  cases h with
  | alone _ hAbsent _ => exact hAbsent
  | accompanied hBeside _ => exact hBeside.absent

theorem Started.fits
    (h : Started path fs container)
    (base : FileSystem) :
    container.writer.Fits (OutputStream.Calmer base)
      base.SameNames := by
  cases h with
  | alone _ _ hKeeps =>
    exact
      hKeeps.fits (OutputStream.inStep_channel _)
        (by simp)
  | accompanied _ hKeeps =>
    exact
      hKeeps.fits (OutputStream.inStep_channel _)
        fun _ => OutputStream.inStep_channel _

/- A container that is given up brings no name in. -/
theorem nodeAt?_discard_eq_none
    (container : ContainerFile)
    {text : String}
    (hNone : fs.nodeAt? text = none) :
    (container.discard.final fs).nodeAt? text = none := by
  have hSame :=
    OutputStream.sameNames_discard container.stream fs
  have hStream := (hSame.nodeAt?_eq text).trans hNone
  unfold ContainerFile.discard Step.final
  rw [Step.perform_bind_of_ok
    (OutputStream.perform_discard container.stream fs)]
  cases container.index with
  | none => exact hStream
  | some index =>
    exact IndexFile.nodeAt?_discard_eq_none index hStream

theorem absent_discard
    (container : ContainerFile)
    (hAbsent : Absent path fs) :
    Absent path (container.discard.final fs) where
  index := nodeAt?_discard_eq_none container hAbsent.index
  legacy := nodeAt?_discard_eq_none container hAbsent.legacy

------------------------------------------------------------
-- Creating
------------------------------------------------------------

/-
  The index of an earlier file is gone. If one is found under
  the older name, it has been there before.
-/
structure Cleared
    (path : String)
    (fs fs' : FileSystem) : Prop where
  hidden : Hidden path fs'
  legacy :
    fs.nodeAt? (legacyPathFor path) = none →
      fs'.nodeAt? (legacyPathFor path) = none

theorem Cleared.sameNames
    {last : FileSystem}
    (h : Cleared path fs fs')
    (hSame : fs'.SameNames last) :
    Cleared path fs last where
  hidden := h.hidden.sameNames hSame
  legacy := fun hLegacy =>
    (hSame.nodeAt?_eq _).trans (h.legacy hLegacy)

/- What happens under other names only leaves it so. -/
theorem Cleared.kept
    {last : FileSystem}
    (h : Cleared path fs fs')
    (hKept :
      ∀ suffix,
        Path.Suffix suffix →
        suffix ≠ ".idx.tmp" →
          last.nodeAt? (path ++ suffix) =
            fs'.nodeAt? (path ++ suffix)) :
    Cleared path fs last where
  hidden := (hKept _ suffix_index (by decide)).trans h.hidden
  legacy := fun hLegacy =>
    (hKept _ suffix_legacy (by decide)).trans (h.legacy hLegacy)

/- An index of an earlier file is gone, or nothing is changed. -/
theorem ends_removeIfPresent
    (hSound : fs.Sound)
    (hFault :
      fs.nodeAt? (pathFor path) ≠ none →
        fs.faults fs.step ≠ some .notFound) :
    (removeIfPresent (pathFor path)).Ends fs
      (fun _ fs' => fs'.Sound ∧ Cleared path fs fs')
      (fun _ fs' => fs.Intact fs') := by
  rcases removeIfPresent_cases (pathFor path) hFault with
    ⟨e, hRemove, _⟩ | ⟨fs', hRemove, hThins, hNone, _⟩
  · exact Step.ends_of_error hRemove (FileSystem.intact_counted fs)
  · exact
      Step.ends_of_ok hRemove
        ⟨hThins.sound hSound, hNone, hThins.nodeAt?_eq_none⟩

/- An index is captured beside a container that is underway. -/
theorem ends_capture
    {start : FileSystem}
    {data : OutputStream}
    {number : Nat}
    {writer : ContainerWriter FileSystem}
    {codec : Codec}
    {fields : Header}
    (hBegun : Begun path data number fs)
    (hCleared : Cleared path start fs)
    (hKeeps :
      writer.Keeps (data.receiver number) codec fields fs.calm
        false false []) :
    Step.Ends
      (do
        let index ← IndexFile.create (pathFor path)
        let writer ← ofExcept (writer.attach index.channel)
        return {
          writer := writer
          stream := data
          index := some index } :
        Action FileSystem ContainerFile)
      fs
      (fun container fs' =>
        Underway path fs' container ∧
        Cleared path start fs' ∧
        container.index.isSome = true)
      (fun _ fs' => Cleared path start fs') := by
  have hCreate :=
    hBegun.createIndex.fails
      (fun _ fs' hCounted =>
        (hCounted ▸
          hCleared.sameNames (FileSystem.sameNames_counted fs) :
          Cleared path start fs'))
  refine hCreate.bind ?_
  rintro index beside
    ⟨indexNumber, hPaired, hKept, hData, hEmpty⟩
  have hAfter := hCleared.kept hKept
  cases hAttach : writer.attach index.channel with
  | error e =>
    apply Step.ends_of_error (e := e) (t := beside)
    · rfl
    · exact hAfter
  | ok attached =>
    let both :=
      OutputStream.receivers hPaired.streams hPaired.files
    have hHolds :
        ∀ received,
          (data.receiver number).Holds fs.calm received [] →
            both.Holds beside.calm received [] := by
      intro received hReceived
      exact
        ⟨beside.calm_calm, hData received hReceived.2, hEmpty⟩
    have hBoth :
        writer.Keeps both codec fields beside.calm false false
          [] :=
      hKeeps.transfer rfl hHolds
    exact
      Step.ends_of_ok rfl
        ⟨.accompanied hPaired hAfter.hidden
            (hBoth.attach hAttach).1,
          hAfter, rfl⟩

/-
  A container is underway, or it is not and no index can be
  found. If the earlier index stays, so does everything.
-/
theorem ends_begin
    (hSound : fs.Sound)
    (hFault :
      fs.nodeAt? (pathFor path) ≠ none →
        fs.faults fs.step ≠ some .notFound)
    (codec : Codec)
    (options : WriterOptions)
    (clock : UInt32) :
    (create path codec options clock).Ends fs
      (fun container fs' =>
        Underway path fs' container ∧
        Cleared path fs fs' ∧
        container.index.isSome = options.index)
      (fun _ fs' => Cleared path fs fs' ∨ fs.Intact fs') := by
  have hRemove :=
    (ends_removeIfPresent hSound hFault).fails
      (fun _ fs' hIntact =>
        (Or.inr hIntact : Cleared path fs fs' ∨ fs.Intact fs'))
  refine hRemove.bind ?_
  rintro _ removed ⟨hSound', hRemoved⟩
  have hCreate :
      (OutputStream.create path).Ends removed
        (fun data fs' =>
          ∃ number,
            Begun path data number fs' ∧
            data.Holds number [] fs' ∧
            Cleared path fs fs')
        (fun _ fs' => Cleared path fs fs' ∨ fs.Intact fs') := by
    refine (IndexFile.ends_create hSound' path).mono ?_ ?_
    · rintro data fs' ⟨number, hBegun, hHolds, _, hKept⟩
      exact
        ⟨number, hBegun, hHolds,
          hRemoved.kept fun suffix hSuffix _ =>
            hKept suffix hSuffix⟩
    · rintro _ _ rfl
      left
      exact
        hRemoved.sameNames (FileSystem.sameNames_counted removed)
  refine hCreate.bind ?_
  rintro data opened ⟨number, hBegun, hHolds, hOpened⟩
  refine
    Step.Ends.onFailure
      (show Step.Ends _ opened _ (fun _ fs' => Cleared path fs fs')
        from ?_)
      (fun _ fs' hCleared =>
        .inl
          (hCleared.sameNames
            (OutputStream.sameNames_discard data fs')))
  have hNew :=
    (OutputStream.ends_of_lockstep
      (ContainerWriter.lockstep_new
        (OutputStream.inStep_channel data) codec options clock)
      (.refl opened)).fails
      (fun _ _ hSame => hOpened.sameNames hSame)
  refine hNew.bind ?_
  rintro writer begun ⟨hSame, hNew⟩
  have hReceived :
      (data.receiver number).Holds opened.calm [] [] :=
    ⟨opened.calm_calm, hHolds⟩
  have hKeeps := ContainerWriter.keeps_new hReceived hNew
  have hBegun' := hBegun.sameNames hSame
  have hCleared := hOpened.sameNames hSame
  by_cases hIndex : options.index = true
  · simp only [hIndex, if_true]
    exact ends_capture hBegun' hCleared hKeeps
  · rw [if_neg hIndex]
    exact
      Step.ends_of_ok rfl
        ⟨.alone hBegun' hCleared.hidden hKeeps, hCleared,
          (Bool.eq_false_iff.mpr hIndex).symm⟩

/-
  A container is started, or it is not and no index can be
  found. If the earlier index stays, so does everything.
-/
theorem ends_create
    (hSound : fs.Sound)
    (hFault : fs.faults fs.step ≠ some .notFound)
    (hLegacy : fs.nodeAt? (legacyPathFor path) = none)
    (codec : Codec)
    (options : WriterOptions)
    (clock : UInt32) :
    (create path codec options clock).Ends fs
      (fun container fs' => Started path fs' container)
      (fun _ fs' => Absent path fs' ∨ fs.Intact fs') := by
  apply (ends_begin hSound (fun _ => hFault) codec options
    clock).mono
  · rintro container fs' ⟨hUnderway, hCleared, _⟩
    exact hUnderway.started (hCleared.legacy hLegacy)
  · intro _ fs' hFails
    exact
      hFails.imp_left fun hCleared =>
        ⟨hCleared.hidden, hCleared.legacy hLegacy⟩

------------------------------------------------------------
-- Closing
------------------------------------------------------------

/- A container is complete when its writer has been closed. -/
theorem ends_complete
    {base : FileSystem}
    {writer : ContainerWriter FileSystem}
    (hSame : base.SameNames fs)
    (hFits :
      writer.Fits (OutputStream.Calmer base) base.SameNames)
    (data : OutputStream)
    (index? : Option IndexFile) :
    (ContainerFile.complete ⟨writer, data, index?⟩).Ends fs
      (fun _ fs' =>
        base.SameNames fs' ∧
        ∃ closed, ∃ before : FileSystem,
          ContainerWriter.close.perform (writer, fs.calm) =
            (.ok (), closed, before.calm) ∧
          fs' = before.counted)
      (fun _ fs' => base.SameNames fs') := by
  refine
    (FrameWriter.ends_withWriter ContainerWriter.lockstep_close
      hFits hSame).bind ?_
  rintro ⟨_, closed⟩ before ⟨hBefore, _, hClose⟩
  have hCounted :=
    hBefore.trans (FileSystem.sameNames_counted before)
  apply (data.ends_sync before).mono
  · intro _ fs' hSynced
    rw [hSynced]
    exact ⟨hCounted, closed, before, hClose, rfl⟩
  · intro _ fs' hSynced
    rw [hSynced]
    exact hCounted

/-
  When a container to which everything was copied has been
  closed, its index stands beside it, or none does.
-/
theorem Started.close
    (h : Started path fs container)
    {finished : ContainerWriter FileSystem}
    (hSame : fs.SameNames fs')
    (hFits :
      finished.Fits (OutputStream.Calmer fs) fs.SameNames)
    (hCopied :
      FrameWriter.Copied container.writer fs.calm finished
        fs'.calm) :
    (ContainerFile.close
        { container with writer := finished }).Ends fs'
      (fun _ last => Tidy path last)
      (fun _ last => Absent path last) := by
  unfold ContainerFile.close
  have hAbsent := h.absent
  cases h with
  | @alone _ data =>
    have hComplete :=
      (ends_complete hSame hFits data none).onFailure
        (fun _ last hSame' =>
          absent_discard ⟨finished, data, none⟩
            (hAbsent.sameNames hSame'))
    refine hComplete.bind ?_
    rintro _ complete ⟨hSame', _⟩
    have hGivenUp := (hAbsent.sameNames hSame').discard data
    exact Step.ends_of_ok rfl (.inl hGivenUp)
  | @accompanied _ _ data index _ _ _ _ hBeside hKeeps =>
    have hComplete :=
      (ends_complete hSame hFits data (some index)).onFailure
        (fun _ last hSame' =>
          absent_discard ⟨finished, data, some index⟩
            (hAbsent.sameNames hSame'))
    refine hComplete.bind ?_
    rintro _ complete ⟨hSame', closed, before, hClose, rfl⟩
    have hReady :=
      ContainerWriter.ready_of_copied hBeside.streams
        hBeside.files hKeeps hCopied hClose
    rcases hReady.counted with
      ⟨bytes, stored, found, hData, hIndex, hScan, hStored⟩
    have hBeside' := hBeside.sameNames hSame'
    have hPublish :
        Step.Ends (index.publish >>= fun _ => pure ())
          before.counted
          (fun (_ : Unit) last =>
            Present path (data.discard.final last))
          (fun _ last =>
            Absent path (data.discard.final last)) :=
      (hBeside'.publish hData hIndex hScan hStored).bind
        fun _ _ hPresent => Step.ends_of_ok rfl hPresent
    exact
      hPublish.ensuring (fun _ _ hPresent => .inr hPresent)
        (fun _ _ hAbsent' => hAbsent')

end ContainerFile

end SplitStream
