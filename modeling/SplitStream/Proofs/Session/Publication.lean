import SplitStream.Proofs.Storage.ContainerFiles
import SplitStream.Proofs.Storage.Soundness
import SplitStream.Proofs.Writer.Pacing

/-
  The index of a container file from the creation of the file
  to its close. Whatever calls are made and whatever fails,
  no index is found before the file is closed; and the one
  that is found then is the one that a scan of the file finds,
  if no call has reported a failure.

  Main declarations:
    * `ContainerFile.written`
    * `ContainerFile.closed`
    * `ContainerFile.Underway.run_sameNames`
    * `ContainerFile.run_keeps`
    * `ContainerFile.Publishes`
    * `ContainerFile.publishes_after_create`
-/

------------------------------------------------------------
-- Runs
------------------------------------------------------------

namespace SplitStream

/- The same tree, in which other operations fail from here on. -/
def FileSystem.failing
    (fs : FileSystem)
    (faults : Nat → Option IoKind) : FileSystem :=
  { fs with faults := faults }

theorem FileSystem.sameNames_failing
    (fs : FileSystem)
    (faults : Nat → Option IoKind) :
    fs.SameNames (fs.failing faults) where
  nodes := rfl
  next := rfl

namespace ContainerFile

open IndexFile

/- Calls are made to the writer of a container file. -/
def written
    (container : ContainerFile)
    (fs : FileSystem)
    (calls : List Call) : Course ContainerWriter FileSystem :=
  (Course.opened container.writer fs).run calls

/- The container file behind the calls. -/
def reached
    (container : ContainerFile)
    (fs : FileSystem)
    (calls : List Call) : ContainerFile :=
  { container with writer := (container.written fs calls).writer }

/- The container file is closed behind the calls. -/
def closed
    (container : ContainerFile)
    (fs : FileSystem)
    (calls : List Call) : Except Error Unit × FileSystem :=
  (container.reached fs calls).close.perform
    (container.written fs calls).world

/- It is given up instead. -/
def dropped
    (container : ContainerFile)
    (fs : FileSystem)
    (calls : List Call) : FileSystem :=
  (container.reached fs calls).discard.final
    (container.written fs calls).world

variable
  {path : String} {fs : FileSystem} {container : ContainerFile}

/- A container is underway whatever will fail. -/
theorem Underway.failing
    (h : Underway path fs container)
    (faults : Nat → Option IoKind) :
    Underway path (fs.failing faults) container := by
  have hSame := fs.sameNames_failing faults
  cases h with
  | alone hBegun hHidden hKeeps =>
    exact
      .alone (hBegun.sameNames hSame) (hHidden.sameNames hSame)
        hKeeps
  | accompanied hPaired hHidden hKeeps =>
    exact
      .accompanied (hPaired.sameNames hSame)
        (hHidden.sameNames hSame) hKeeps

theorem Underway.hidden
    (h : Underway path fs container) :
    Hidden path fs := by
  cases h with
  | alone _ hHidden _ => exact hHidden
  | accompanied _ hHidden _ => exact hHidden

/- Its channels keep trees that are alike in step. -/
theorem Underway.fits
    {Alike : FileSystem → FileSystem → Prop}
    {Lost : FileSystem → Prop}
    (h : Underway path fs container)
    (hAlike : FileSystem.Likeness Alike Lost) :
    container.writer.Fits Alike Lost := by
  cases h with
  | alone _ _ hKeeps =>
    exact hKeeps.fits (hAlike.inStep_channel _) (by simp)
  | accompanied _ _ hKeeps =>
    exact
      hKeeps.fits (hAlike.inStep_channel _) fun _ =>
        hAlike.inStep_channel _

/- A writer whose channels change no names of a tree. -/
abbrev KeepsNames
    (base : FileSystem)
    (writer : ContainerWriter FileSystem) : Prop :=
  writer.Fits (fun fs other => fs = other ∧ base.SameNames fs)
    fun _ => False

/- No call changes a name, whether or not it fails. -/
theorem Underway.run_sameNames
    (h : Underway path fs container)
    (calls : List Call) :
    KeepsNames fs (container.written fs calls).writer ∧
      fs.SameNames (container.written fs calls).world := by
  let Holds (later : Course ContainerWriter FileSystem) : Prop :=
    KeepsNames fs later.writer ∧ fs.SameNames later.world
  have hStep :
      ∀ later,
        Holds later → ∀ call, Holds (later.step call) := by
    rintro later ⟨hFits, hSame⟩ call
    rcases ContainerWriter.lockstep_call call
      (later.writer, later.world) (later.writer, later.world)
      ⟨rfl, hFits, rfl, hSame⟩ with
      ⟨result, ⟨writer, world⟩, _, hCall, _, _, hFits', _,
        hSame'⟩ |
        ⟨_, _, _, hNever⟩
    · rw [Course.step_eq hCall]
      exact ⟨hFits', hSame'⟩
    · exact hNever.elim
  exact
    Course.run_of_step hStep (.opened container.writer fs) calls
      ⟨h.fits (FileSystem.likeness_sameNames fs), .refl fs⟩

/-
  As long as no call reports a failing device, a writer keeps
  what it keeps in a tree where nothing fails.
-/
theorem run_keeps
    (container : ContainerFile)
    {receivers : Receivers FileSystem}
    {codec : Codec}
    {fields : Header}
    {captured : Bool}
    {kept : Bytes}
    (hSettled : receivers.Settled)
    (hKeeps :
      container.writer.Keeps receivers codec fields fs.calm
        captured false kept)
    (hFits :
      container.writer.Fits (OutputStream.Calmer fs)
        fun _ => True)
    (calls : List Call)
    (hUnfailing : (container.written fs calls).Unfailing) :
    ∃ kept',
      (container.written fs calls).writer.Keeps receivers codec
        fields (container.written fs calls).world.calm captured
        false kept' := by
  let calm : Course ContainerWriter FileSystem :=
    { writer := container.writer
      world := fs.calm
      kept := kept
      log := [] }
  have hUpholds :
      calm.Upholds receivers codec fields captured :=
    ⟨hKeeps, fun _ => rfl⟩
  have hRun := hUpholds.run calls
  have hKept := hRun.keeps
  rw [hRun.whole hSettled] at hKept
  have hReporting :=
    ContainerWriter.reporting (OutputStream.Calmer fs)
      container.writer.regrouper
  rcases hReporting.run_alongside (.opened container.writer fs)
    calm calls hUnfailing
    ⟨rfl, ⟨rfl, rfl⟩, rfl, hFits, .refl fs, rfl⟩ with
    ⟨hWriter, _, _, _, _, hCalm⟩
  have hSame :
      (calm.run calls).writer =
        (container.written fs calls).writer :=
    hWriter.symm
  have hWorld :
      (calm.run calls).world =
        (container.written fs calls).world.calm :=
    hCalm
  rw [hSame, hWorld] at hKept
  exact ⟨_, hKept⟩

------------------------------------------------------------
-- Endings
------------------------------------------------------------

/- A container is completed under the names there are. -/
theorem ends_complete_sameNames
    {base : FileSystem}
    {writer : ContainerWriter FileSystem}
    (hFits : KeepsNames base writer)
    (hSame : base.SameNames fs)
    (data : OutputStream)
    (index? : Option IndexFile) :
    (ContainerFile.complete ⟨writer, data, index?⟩).Ends fs
      (fun _ fs' => base.SameNames fs')
      (fun _ fs' => base.SameNames fs') := by
  have hClose :
      base.SameNames
        ((FrameWriter.withWriter writer
          ContainerWriter.close).final fs) := by
    unfold Step.final
    rcases FrameWriter.withWriter_paced
      ContainerWriter.lockstep_close hFits ⟨rfl, hSame⟩ with
      ⟨result, fs', _, hLeft, _, ⟨_, hSame'⟩, _⟩ |
        ⟨_, _, _, hNever⟩
    · rw [hLeft]
      exact hSame'
    · exact hNever.elim
  apply (Step.ends_of_final hClose).bind
  intro _ closed hClosed
  exact
    Step.ends_of_final
      (FileSystem.holds_final
        (FileSystem.likeness_sameNames base).attempt hClosed)

/-
  A close that fails leaves an index hidden, and so does a
  close without an index.
-/
theorem Underway.ends_close_hidden
    (h : Underway path fs container)
    {writer : ContainerWriter FileSystem}
    {last : FileSystem}
    (hFits : KeepsNames fs writer)
    (hSame : fs.SameNames last) :
    (ContainerFile.close
        { container with writer := writer }).Ends last
      (fun _ next =>
        container.index.isSome = false → Hidden path next)
      (fun _ next => Hidden path next) := by
  have hHidden := h.hidden
  have hDropped :
      ∀ next : FileSystem,
        fs.SameNames next →
          Hidden path
            (({ container with
              writer := writer } : ContainerFile).discard.final
                next) :=
    fun _ hSame' =>
      nodeAt?_discard_eq_none _ (hHidden.sameNames hSame')
  have hComplete :=
    (ends_complete_sameNames hFits hSame container.stream
      container.index).onFailure
      fun _ next hSame' => hDropped next hSame'
  refine hComplete.bind ?_
  intro _ complete hSame'
  have hGivenUp :
      ∀ next : FileSystem,
        Hidden path next →
          Hidden path (container.stream.discard.final next) :=
    fun next hNext =>
      hNext.sameNames
        (OutputStream.sameNames_discard container.stream next)
  cases h with
  | alone _ _ _ =>
    exact
      Step.ends_of_ok rfl fun _ =>
        hGivenUp complete (hHidden.sameNames hSame')
  | @accompanied _ _ data index _ _ _ _ hPaired _ _ =>
    have hPublish :
        (index.publish >>= fun _ => pure ()).Ends complete
          (fun (_ : Unit) _ => True)
          (fun _ next => Hidden path next) :=
      ((hPaired.sameNames hSame').hidden_of_publish
        (hHidden.sameNames hSame')).bind
        fun _ _ _ => Step.ends_of_ok rfl trivial
    exact
      hPublish.ensuring (fun _ _ _ hAlone => nomatch hAlone)
        (fun _ next hNext => hGivenUp next hNext)

/-
  Where no call has reported a failing device, a close that
  succeeds publishes the index that a scan finds.
-/
theorem Underway.ends_close_whole
    (h : Underway path fs container)
    (hIndex : container.index.isSome = true)
    (calls : List Call)
    (hUnfailing : (container.written fs calls).Unfailing) :
    (container.reached fs calls).close.Ends
      (container.written fs calls).world
      (fun _ next => Whole path next)
      (fun _ _ => True) := by
  have hSame := (h.run_sameNames calls).2
  have hCalmer :
      FileSystem.Likeness (OutputStream.Calmer fs)
        fun _ => True :=
    FileSystem.likeness_calmer
      (fun _ _ _ hSame => ⟨hSame.nodes, hSame.next⟩)
      (fun later hSame =>
        hSame.trans (FileSystem.sameNames_counted later))
      (fun _ _ _ _ => trivial)
  have hFits := h.fits hCalmer
  cases h with
  | alone _ _ _ => cases hIndex
  | @accompanied _ _ data index writer _ _ _ hPaired hHidden
      hKeeps =>
    have hSettled :
        (OutputStream.receivers hPaired.streams
          hPaired.files).Settled :=
      OutputStream.settled_receiversIn hPaired.streams
        hPaired.files (OutputStream.keeps_calm data _)
        (OutputStream.keeps_calm index.stream _)
    rcases run_keeps ⟨writer, data, some index⟩ hSettled hKeeps
      hFits calls hUnfailing with ⟨kept, hKept⟩
    have hComplete :=
      ends_complete hSame
        (hKept.fits (OutputStream.inStep_channel _) fun _ =>
          OutputStream.inStep_channel _)
        data (some index)
    unfold ContainerFile.close
    refine (hComplete.onFailure fun _ _ _ => trivial).bind ?_
    rintro _ complete ⟨hSame', after, before, hClose, rfl⟩
    have hReady :=
      ContainerWriter.ready_of_close hPaired.streams
        hPaired.files hKept hClose
    rcases hReady.counted with
      ⟨bytes, stored, found, hData, hStored, hScan, hLayout⟩
    have hPublished :=
      ((hPaired.sameNames hSame').publish
        (hHidden.sameNames hSame') hData hStored hScan
        hLayout).fails
        fun _ _ _ => (trivial : True)
    have hPublish :
        (index.publish >>= fun _ => pure ()).Ends before.counted
          (fun (_ : Unit) next =>
            Whole path (data.discard.final next))
          (fun _ _ => True) := by
      refine hPublished.bind ?_
      rintro _ next ⟨hWhole, _⟩
      exact Step.ends_of_ok rfl hWhole
    exact
      hPublish.ensuring (fun _ _ hWhole => hWhole)
        (fun _ _ _ => trivial)

------------------------------------------------------------
-- Publication
------------------------------------------------------------

/-
  How an index shows itself after some calls. It is hidden as
  long as the container is not closed, and remains so if the
  container is given up, if its close fails, or if no index
  was asked for. If no call has reported a failing device, a
  close that succeeds leaves the index that a scan of the
  file finds, with nothing missing.
-/
structure Publishes
    (path : String)
    (indexed : Bool)
    (container : ContainerFile)
    (fs : FileSystem)
    (calls : List Call) : Prop where
  opened : Hidden path (container.written fs calls).world
  dropped : Hidden path (container.dropped fs calls)
  failed :
    ∀ e,
      (container.closed fs calls).1 = .error e →
        Hidden path (container.closed fs calls).2
  plain :
    indexed = false → Hidden path (container.closed fs calls).2
  whole :
    indexed = true →
    (container.written fs calls).Unfailing →
    (container.closed fs calls).1 = .ok () →
      Whole path (container.closed fs calls).2

theorem Underway.publishes
    (h : Underway path fs container)
    (calls : List Call) :
    Publishes path container.index.isSome container fs calls := by
  rcases h.run_sameNames calls with ⟨hFits, hSame⟩
  have hOpened := h.hidden.sameNames hSame
  have hClose := h.ends_close_hidden hFits hSame
  refine
    { opened := hOpened
      dropped := nodeAt?_discard_eq_none _ hOpened
      failed := ?_
      plain := ?_
      whole := ?_ }
  · intro e hFailed
    exact hClose.of_error (Prod.ext hFailed rfl)
  · intro hPlain
    rcases hClosed : container.closed fs calls with
      ⟨e | _, next⟩
    · exact hClose.of_error hClosed
    · exact hClose.of_ok hClosed hPlain
  · intro hIndexed hUnfailing hOk
    exact
      (h.ends_close_whole hIndexed calls hUnfailing).of_ok
        (Prod.ext hOk rfl)

/-
  From the creation of a container file on, its index shows
  itself when the file is closed and not before, whatever is
  called and whatever operations fail. What a run has left on
  its way is what it leaves if all further operations fail,
  for an operation that fails changes nothing. An index of an
  earlier file must not be reported missing when it is there.
-/
theorem publishes_after_create
    {created : FileSystem}
    {codec : Codec}
    {options : WriterOptions}
    {clock : UInt32}
    (hSound : fs.Sound)
    (hFault :
      fs.nodeAt? (pathFor path) ≠ none →
        fs.faults fs.step ≠ some .notFound)
    (hCreate :
      (create path codec options clock).perform fs =
        (.ok container, created))
    (faults : Nat → Option IoKind)
    (calls : List Call) :
    Publishes path options.index container
      (created.failing faults) calls := by
  rcases (ends_begin hSound hFault codec options clock).of_ok
    hCreate with ⟨hUnderway, _, hIndexed⟩
  rw [← hIndexed]
  exact (hUnderway.failing faults).publishes calls

/- A tree with an index that an earlier file has left. -/
def leftover : FileSystem :=
  (FileSystem.createFile "o.idx").final .empty

/- Small blocks, and an index beside the file. -/
def indexedOptions : WriterOptions :=
  { WriterOptions.standard with
    blockSize := 4
    index := true }

/- Two members, the second one without a terminator yet. -/
def pairOfMembers : List Call :=
  [.write [1, 1, 1, 1, 2], .finish, .reset, .write [3, 3, 3, 3]]

theorem publishes_after_create_of_leftover :
    leftover.Sound ∧
      leftover.nodeAt? (pathFor "o") ≠ none ∧
      leftover.faults leftover.step ≠ some .notFound ∧
      ∃ container created,
        (create "o" .runLength indexedOptions 0).perform leftover =
          (.ok container, created) ∧
        Publishes "o" true container
          (created.failing fun _ => none) pairOfMembers ∧
        (container.written (created.failing fun _ => none)
          pairOfMembers).Unfailing ∧
        (container.closed (created.failing fun _ => none)
          pairOfMembers).1 = .ok () := by
  have hSound : leftover.Sound :=
    FileSystem.sound_empty.createFile "o.idx"
  have hFault : leftover.faults leftover.step ≠ some .notFound := by
    decide +kernel
  refine ⟨hSound, by decide +kernel, hFault, ?_⟩
  have hRun :
      (match
        (create "o" .runLength indexedOptions 0).perform leftover with
      | (.error _, _) => false
      | (.ok container, created) =>
        (container.written (created.failing fun _ => none)
          pairOfMembers).log.all
            (fun entry => !channelFailed entry.2) &&
        (container.closed (created.failing fun _ => none)
          pairOfMembers).1.isOk) = true := by
    decide +kernel
  rcases hCreate :
    (create "o" .runLength indexedOptions 0).perform leftover with
    ⟨e | container, created⟩
  · rw [hCreate] at hRun
    cases hRun
  · rw [hCreate] at hRun
    rcases Bool.and_eq_true_iff.mp hRun with ⟨hCalls, hOk⟩
    refine ⟨container, created, rfl, ?_, ?_, ?_⟩
    · exact
        publishes_after_create hSound (fun _ => hFault) hCreate
          (fun _ => none) pairOfMembers
    · intro entry hEntry
      simpa using List.all_eq_true.mp hCalls entry hEntry
    · generalize (container.closed _ pairOfMembers).1 = result
        at hOk ⊢
      cases result with
      | error e => cases hOk
      | ok _ => rfl

end ContainerFile

end SplitStream
