import SplitStream.Proofs.Command.Finding
import SplitStream.Proofs.Scan.RawRounds
import SplitStream.Proofs.Storage.Calm
import SplitStream.Proofs.Writer.Truthful

/-
  Rebuilt indexes. A file is scanned, and its index is written
  beside it to a temporary file that gets the name of the
  index at last. Whatever fails on the way leaves what stood
  under that name. The temporary file is removed behind a
  failure, but not if it was complete and could not be stored
  or renamed.

  Main declarations:
    * `OutputStream.ends_deliver`
    * `FileSystem.removeFile_of_isFile`
    * `FileSystem.ends_rename`
    * `Step.labelled`
    * `IndexFile.Point`
    * `IndexFile.staged`
    * `IndexFile.unlabelled_staged`
    * `IndexFile.Abandoned`
    * `IndexFile.rebuilt_or_abandoned`
-/

------------------------------------------------------------
-- Streams
------------------------------------------------------------

namespace SplitStream

namespace OutputStream

variable
  {stream : OutputStream} {file : Nat} {fs : FileSystem}
  {bytes : Bytes}

/-
  Since an earlier tree only a stream and its file have
  changed, and the stream holds the given bytes.
-/
structure Carries
    (stream : OutputStream)
    (file : Nat)
    (base fs : FileSystem)
    (bytes : Bytes) : Prop where
  touches : stream.Touches file base fs
  holds : stream.Holds file bytes fs

/- A write to a file that fails has taken nothing. -/
theorem truthful_channel
    (stream : OutputStream)
    (file : Nat)
    (base : FileSystem) :
    stream.channel.Truthful (stream.Carries file base)
      (stream.Carries file base) := by
  intro fs held bs hCarries hSome
  have hWrite := ends_write hCarries.holds bs
  have hChannel :
      stream.channel.write bs fs =
        deviceResult ((stream.write bs).perform fs) :=
    rfl
  rcases hPerform : (stream.write bs).perform fs with ⟨e | n, fs'⟩
  · right
    rcases hWrite.of_error hPerform with ⟨_, hHolds, hTouches⟩
    rw [hPerform] at hChannel
    exact
      ⟨_, fs', hChannel, rfl, hCarries.touches.trans hTouches,
        hHolds⟩
  · left
    rcases hWrite.of_ok hPerform with ⟨rfl, hHolds, hTouches⟩
    rw [hPerform] at hChannel
    rcases List.exists_cons_of_ne_nil hSome with ⟨b, rest, rfl⟩
    have hAll : (b :: rest).take (rest.length + 1) = b :: rest :=
      List.take_of_length_le (Nat.le_refl _)
    refine
      ⟨rest.length, fs', hChannel, Nat.lt_succ_self _,
        hCarries.touches.trans hTouches, ?_⟩
    rw [hAll]
    exact hHolds

/- All bytes are delivered, or those before a failure. -/
theorem ends_deliver
    (hHolds : stream.Holds file bytes fs)
    (bs : Bytes) :
    (stream.deliver bs).Ends fs
      (fun _ fs' => stream.Carries file fs fs' (bytes ++ bs))
      (fun _ fs' => ∃ held, stream.Carries file fs fs' held) := by
  have hTruthful := truthful_channel stream file fs
  rw [Step.Ends, deliver, Step.perform_ofStep]
  rcases hTruthful.deliver bs ⟨.refl stream file fs, hHolds⟩ with
    ⟨next, hDeliver, hCarries⟩ |
      ⟨kind, n, next, _, hDeliver, hCarries⟩
  · rw [hDeliver]
    exact hCarries
  · rw [hDeliver]
    exact ⟨bytes ++ bs.take n, hCarries⟩

/- Nothing is delivered without a write. -/
theorem deliver_nil
    (stream : OutputStream) :
    stream.deliver [] = pure () := by
  funext fs
  change (stream.deliver []).perform fs = _
  rw [deliver, Step.perform_ofStep, Channel.deliver,
    Channel.deliverFrom]
  rfl

/- A stream that is given up has changed its file at most. -/
theorem touches_discard
    (hHolds : stream.Holds file bytes fs) :
    stream.Touches file fs (stream.discard.final fs) := by
  have hFlush :
      stream.Touches file fs (stream.flushBuffer.final fs) := by
    have hEnds := ends_flushBuffer hHolds
    unfold Step.final
    rcases hPerform : stream.flushBuffer.perform fs with ⟨e | _, fs'⟩
    · rcases hEnds.of_error hPerform with ⟨_, rfl⟩
      exact touches_counted stream file fs
    · exact (hEnds.of_ok hPerform).2
  have hDiscard :
      stream.discard.final fs =
        stream.forget.final (stream.flushBuffer.final fs) :=
    rfl
  rw [hDiscard]
  apply hFlush.trans
  exact
    { nodes := rfl
      next := rfl
      faults := rfl
      bytes := fun _ _ => rfl
      streams := fun _ hOther => Table.get?_erase _ hOther }

end OutputStream

------------------------------------------------------------
-- Names
------------------------------------------------------------

namespace FileSystem

variable {fs : FileSystem} {text : String} {number : Nat}

/- A file that has been opened is the file of the text. -/
theorem ends_openNode_isFile
    (fs : FileSystem)
    (text : String) :
    (openNode text).Ends fs
      (fun node fs' =>
        fs' = fs.counted ∧
        (node = .directory ∨
          ∃ number, node = .file number ∧ fs.IsFile text number))
      (fun _ fs' => fs' = fs.counted) := by
  unfold openNode
  rcases attempt_bind_cases fs _ with
    ⟨kind, _, hPerform⟩ | hPerform
  · exact Step.ends_of_error hPerform rfl
  rw [Step.Ends, hPerform]
  rcases locate_cases fs.counted text with
    ⟨place, hLocate, hPlace⟩ | ⟨kind, hLocate, _⟩
  · rw [Step.perform_bind_of_ok hLocate,
      Step.perform_bind_of_ok (Step.perform_get _),
      node?_counted]
    rw [place?_counted] at hPlace
    cases hNode : fs.node? place.names with
    | none => rfl
    | some node =>
      cases node with
      | directory => exact ⟨rfl, .inl rfl⟩
      | file number =>
        dsimp only
        cases hDirectory : place.isDirectory with
        | true => rfl
        | false =>
          exact
            ⟨rfl, .inr ⟨number, rfl, place, hPlace, hDirectory, hNode⟩⟩
  · rw [Step.perform_bind_of_error hLocate]

/- Only a reason outside the tree keeps a file from removal. -/
theorem removeFile_of_isFile
    (hFile : fs.IsFile text number) :
    fs.Alters [text] ((removeFile text).final fs) ∧
      ((removeFile text).final fs).step = fs.step + 1 ∧
      (((removeFile text).final fs).nodeAt? text = none ↔
        fs.faults fs.step = none) := by
  have hNode := hFile.nodeAt?_eq
  cases hFault : fs.faults fs.step with
  | some kind =>
    have hFinal : (removeFile text).final fs = fs.counted := by
      have hAttempt :
          attempt.perform fs = (.error (.io kind), fs.counted) := by
        rw [perform_attempt, hFault]
      rw [Step.final, removeFile,
        Step.perform_bind_of_error hAttempt]
    rw [hFinal, nodeAt?_counted, hNode]
    exact ⟨fs.counts_counted.alters [text], rfl, by simp⟩
  | none =>
    rcases removeFile_cases fs text with
      ⟨e, _, hAbsent, hReason⟩ |
        ⟨place, other, hPerform, hPlace, hOther⟩
    · rcases hReason with hKind | hHinders
      · rcases hAbsent hKind with hNone | hSaid
        · rw [hNode] at hNone
          contradiction
        · rw [hFault] at hSaid
          contradiction
      · exact
          absurd hHinders
            (not_or.mpr
              ⟨not_not_intro hFault, not_not_intro hFile.admits⟩)
    · have hFinal :
          (removeFile text).final fs =
            fs.counted.without place.names := by
        rw [Step.final, hPerform]
      have hThins := thins_without hOther
      have hSome : place.names ≠ [] :=
        ne_nil_of_node?_ne (by rw [hOther]; simp)
      have hAfter := hThins.sameDirectories.place?_eq text
      rw [hPlace] at hAfter
      rw [hFinal]
      refine ⟨?_, rfl, ?_⟩
      · exact
          { directories := hThins.sameDirectories
            faults := rfl
            sound := hThins.sound
            nodes := by
              intro further hAvoids
              apply hThins.sameDirectories.nodeAt?_eq
              intro elsewhere hElsewhere
              have hApart :=
                hAvoids text List.mem_cons_self elsewhere hElsewhere
                  place hPlace
              rw [node?_without hApart, node?_counted]
            bytes := fun _ _ _ _ => rfl }
      · rw [nodeAt?_of_place? hAfter, node?_without_self hSome]
        simp

/-
  A file gets another name where no directory stands, or the
  tree is as it was.
-/
theorem ends_rename
    {source target : String}
    {old : Place}
    (hOld : fs.place? source = some old)
    (hFile : fs.node? old.names = some (.file number))
    (hApart : fs.Apart source target) :
    (rename source target).Ends fs
      (fun _ fs' =>
        ∃ new,
          fs.place? target = some new ∧
          fs.node? new.names ≠ some .directory ∧
          fs' = fs.counted.moved old.names new.names)
      (fun _ fs' => fs' = fs.counted) := by
  by_cases hTaken :
      ∃ new ∈ fs.place? target, fs.node? new.names = some .directory
  · rcases hTaken with ⟨new, hNew, hDirectory⟩
    unfold rename
    rcases attempt_bind_cases fs _ with
      ⟨kind, _, hPerform⟩ | hPerform
    · exact Step.ends_of_error hPerform rfl
    · rw [← place?_counted] at hOld
      rw [Option.mem_def, ← place?_counted] at hNew
      rw [Step.perform_bind_of_ok (perform_locate_of_place? hOld),
        Step.perform_bind_of_ok (perform_locate_of_place? hNew),
        Step.perform_bind_of_ok (Step.perform_get _)] at hPerform
      simp only [node?_counted, hFile, hDirectory] at hPerform
      exact Step.ends_of_error hPerform rfl
  · have hFree :
        ∀ new ∈ fs.place? target,
          old.names ≠ new.names ∧
            fs.node? new.names ≠ some .directory := by
      intro new hNew
      exact
        ⟨hApart old hOld new hNew,
          fun hDirectory => hTaken ⟨new, hNew, hDirectory⟩⟩
    rcases rename_cases hOld hFile hFree with
      ⟨e, hPerform, _⟩ | ⟨new, hPerform, hNew⟩
    · exact Step.ends_of_error hPerform rfl
    · exact
        Step.ends_of_ok hPerform ⟨new, hNew, (hFree new hNew).2, rfl⟩

end FileSystem

------------------------------------------------------------
-- Points Of Failure
------------------------------------------------------------

namespace Step

variable {ε σ α β κ : Type}

/- The step whose failures tell the point at which it stands. -/
def labelled
    (point : κ)
    (step : Step ε σ α) : Step (κ × ε) σ α :=
  ofStep fun s =>
    ((step.perform s).1.mapError fun e => (point, e),
      (step.perform s).2)

/- The step whose failures do not tell a point any more. -/
def unlabelled
    (step : Step (κ × ε) σ α) : Step ε σ α :=
  ofStep fun s =>
    ((step.perform s).1.mapError Prod.snd, (step.perform s).2)

@[simp]
theorem perform_labelled
    (point : κ)
    (step : Step ε σ α)
    (s : σ) :
    (step.labelled point).perform s =
      ((step.perform s).1.mapError fun e => (point, e),
        (step.perform s).2) :=
  rfl

@[simp]
theorem perform_unlabelled
    (step : Step (κ × ε) σ α)
    (s : σ) :
    step.unlabelled.perform s =
      ((step.perform s).1.mapError Prod.snd, (step.perform s).2) :=
  rfl

/- Steps that perform the same are the same. -/
theorem eq_of_perform
    {step other : Step ε σ α}
    (h : ∀ s, step.perform s = other.perform s) :
    step = other :=
  funext h

theorem unlabelled_labelled
    (point : κ)
    (step : Step ε σ α) :
    (step.labelled point).unlabelled = step := by
  apply eq_of_perform
  intro s
  rw [perform_unlabelled, perform_labelled]
  rcases step.perform s with ⟨_ | _, _⟩ <;> rfl

theorem unlabelled_pure
    (a : α) :
    (pure a : Step (κ × ε) σ α).unlabelled = pure a :=
  rfl

theorem unlabelled_bind
    (step : Step (κ × ε) σ α)
    (next : α → Step (κ × ε) σ β) :
    (step >>= next).unlabelled =
      step.unlabelled >>= fun a => (next a).unlabelled := by
  apply eq_of_perform
  intro s
  rw [perform_unlabelled, perform_bind, perform_bind,
    perform_unlabelled]
  rcases step.perform s with ⟨_ | _, _⟩ <;> rfl

theorem unlabelled_onFailure
    (cleanup : σ → σ)
    (step : Step (κ × ε) σ α) :
    (onFailure cleanup step).unlabelled =
      onFailure cleanup step.unlabelled := by
  apply eq_of_perform
  intro s
  rw [perform_unlabelled, onFailure, onFailure, perform_ofStep,
    perform_ofStep, perform_unlabelled]
  rcases step.perform s with ⟨_ | _, _⟩ <;> rfl

/- A failure that tells its point is one of the step. -/
theorem Ends.labelled
    {step : Step ε σ α}
    {s : σ}
    {point : κ}
    {Done : α → σ → Prop}
    {Fails : κ × ε → σ → Prop}
    (h : step.Ends s Done fun e => Fails (point, e)) :
    (step.labelled point).Ends s Done Fails := by
  rw [Ends, perform_labelled]
  rcases hStep : step.perform s with ⟨e | a, t⟩
  · exact h.of_error hStep
  · exact h.of_ok hStep

end Step

namespace IndexFile

variable {fs fs' : FileSystem} {file : String} {number : Nat}

/- The points at which the rebuilding of an index can fail. -/
inductive Point where
  | scan
  | create
  | write
  | flush
  | sync
  | rename
  deriving DecidableEq, Repr

/- Rebuilding an index, with failures that tell their point. -/
def staged
    (file : String) :
    Step (Point × Error) FileSystem FrameIndex := do
  let index ← (scanFile file).labelled .scan
  let out ← (create (pathFor file)).labelled .create
  Step.onFailure out.discard.final do
    (out.write index.toBytes).labelled .write
    out.flush.labelled .flush
  out.close.labelled .sync
  (FileSystem.rename (temporary out.target) out.target).labelled
    .rename
  return index

/- The points are told, and nothing else is different. -/
theorem unlabelled_staged
    (file : String) :
    (staged file).unlabelled = rebuild file := by
  unfold staged rebuild save
  simp only [Step.unlabelled_bind, Step.unlabelled_labelled,
    Step.unlabelled_onFailure, Step.unlabelled_pure, publish_eq,
    bind_assoc, pure_bind]

------------------------------------------------------------
-- Outcomes
------------------------------------------------------------

/-
  The index that a scan of a file finds stands beside it, and
  the temporary file is gone.
-/
structure Rebuilt
    (file : String)
    (index : FrameIndex)
    (fs fs' : FileSystem) : Prop where
  own : IsOf file fs index
  stored : fs'.HasFile (pathFor file) index.toBytes
  gone : fs'.nodeAt? (temporary (pathFor file)) = none
  others :
    fs.Alters [temporary (pathFor file), pathFor file] fs'

/-
  What a failure leaves of the temporary file. Before it has
  been created, nothing has changed. A file that could not be
  written is removed by the last operation, unless this fails
  as well. A file that was complete is left behind.
-/
def Leaves
    (file : String)
    (fs fs' : FileSystem) : Point → Prop
  | .scan => fs.Intact fs'
  | .create => fs.Intact fs'
  | .write =>
      fs'.nodeAt? (temporary (pathFor file)) = none ↔
        fs.faults (fs'.step - 1) = none
  | .flush =>
      fs'.nodeAt? (temporary (pathFor file)) = none ↔
        fs.faults (fs'.step - 1) = none
  | .sync =>
      ∃ index,
        IsOf file fs index ∧
        fs'.HasFile (temporary (pathFor file)) index.toBytes
  | .rename =>
      ∃ index,
        IsOf file fs index ∧
        fs'.HasFile (temporary (pathFor file)) index.toBytes

/-
  Under the name of the index stands what stood there before,
  and only the temporary file may have changed.
-/
structure Abandoned
    (file : String)
    (point : Point)
    (fs fs' : FileSystem) : Prop where
  node : fs'.nodeAt? (pathFor file) = fs.nodeAt? (pathFor file)
  bytes :
    ∀ number,
      fs.nodeAt? (pathFor file) = some (.file number) →
        fs'.bytesOf number = fs.bytesOf number
  others : fs.Alters [temporary (pathFor file)] fs'
  left : Leaves file fs fs' point

/- Where operations have been counted only, all is as before. -/
theorem abandoned_of_counts
    {point : Point}
    (hCounts : fs.Counts fs')
    (hPoint : point = .scan ∨ point = .create) :
    Abandoned file point fs fs' where
  node := hCounts.intact.nodeAt?_eq _
  bytes := fun number _ => hCounts.intact.bytesOf_eq number
  others := hCounts.alters _
  left := by
    rcases hPoint with rfl | rfl
    · exact hCounts.intact
    · exact hCounts.intact

/- The index is beside its temporary file and is not altered. -/
theorem abandoned_of_alters
    {point : Point}
    (hFile : fs.IsFile file number)
    (hAlters : fs.Alters [temporary (pathFor file)] fs')
    (hLeaves : Leaves file fs fs' point) :
    Abandoned file point fs fs' := by
  have hAvoids : fs.Avoids (pathFor file) [temporary (pathFor file)] := by
    intro other hOther
    rw [List.mem_singleton.mp hOther]
    exact (apart_temporary hFile.admits).symm
  exact
    { node := hAlters.nodes _ hAvoids
      bytes := fun number hNode =>
        hAlters.bytes _ number hAvoids hNode
      others := hAlters
      left := hLeaves }

------------------------------------------------------------
-- Drafts
------------------------------------------------------------

/-
  An index is being written to its temporary file, and no
  other file has changed since an earlier tree.
-/
structure Draft
    (file : String)
    (out : IndexFile)
    (number : Nat)
    (fs fs' : FileSystem) : Prop where
  target : out.target = pathFor file
  sound : fs'.Sound
  alters : fs.Alters [temporary (pathFor file)] fs'
  isFile : fs'.IsFile (temporary (pathFor file)) number

variable {out : IndexFile} {middle : FileSystem} {bytes : Bytes}

theorem Draft.touches
    (h : Draft file out number fs middle)
    (hTouches : out.stream.Touches number middle fs') :
    Draft file out number fs fs' where
  target := h.target
  sound := hTouches.sameNames.sound h.sound
  alters := by
    have hFills := FileSystem.fills_of_touches hTouches h.isFile
    exact h.alters.trans (hFills.alters h.sound)
  isFile := hTouches.sameNames.isFile h.isFile

/- A draft is begun with an empty temporary file. -/
theorem ends_begin
    (hSound : middle.Sound)
    (hCounts : fs.Counts middle) :
    ((create (pathFor file)).labelled Point.create).Ends middle
      (fun out fs' =>
        ∃ number,
          Draft file out number fs fs' ∧
          out.stream.Holds number [] fs')
      (fun failure fs' => Abandoned file failure.1 fs fs') := by
  apply Step.Ends.labelled
  unfold create
  rcases OutputStream.create_cases hSound
    (temporary (pathFor file)) with
    ⟨e, hCreate, _⟩ |
      ⟨stream, number, place, fs', hCreate, hPlace, hFile, hCreated⟩
  · have hSame := hCounts.trans middle.counts_counted
    exact
      Step.ends_of_error (Step.perform_bind_of_error hCreate)
        (abandoned_of_counts hSame (.inr rfl))
  · refine
      Step.ends_of_ok (Step.perform_bind_of_ok hCreate)
        ⟨number, ?_, hCreated.holds⟩
    exact
      { target := rfl
        sound := hCreated.sound
        alters := (hCounts.alters _).trans (hCreated.alters hPlace)
        isFile := hCreated.isFile hPlace hFile }

/-
  A draft that is given up is removed, unless the last
  operation fails, which is its removal.
-/
theorem Draft.discard
    (h : Draft file out number fs middle)
    (hHolds : out.stream.Holds number bytes middle) :
    fs.Alters [temporary (pathFor file)] (out.discard.final middle) ∧
      ((out.discard.final middle).nodeAt?
            (temporary (pathFor file)) = none ↔
        fs.faults ((out.discard.final middle).step - 1) = none) := by
  have hDraft := h.touches (OutputStream.touches_discard hHolds)
  have hDiscard :
      out.discard.final middle =
        (FileSystem.removeFile (temporary (pathFor file))).final
          (out.stream.discard.final middle) := by
    rw [← h.target]
    rfl
  rcases FileSystem.removeFile_of_isFile hDraft.isFile with
    ⟨hRemoved, hStep, hGone⟩
  rw [hDiscard, hStep, Nat.add_sub_cancel, hGone,
    hDraft.alters.faults]
  exact ⟨hDraft.alters.trans hRemoved, Iff.rfl⟩

/- An index is written to a draft, or some of it is. -/
theorem Draft.ends_write
    (h : Draft file out number fs middle)
    (hHolds : out.stream.Holds number [] middle)
    (bs : Bytes) :
    ((out.write bs).labelled Point.write >>= fun _ =>
        out.flush.labelled Point.flush).Ends middle
      (fun _ fs' =>
        Draft file out number fs fs' ∧
        out.stream.Settled number bs fs')
      (fun failure fs' =>
        (failure.1 = .write ∨ failure.1 = .flush) ∧
        Draft file out number fs fs' ∧
        ∃ held, out.stream.Holds number held fs') := by
  have hWrite :
      ((out.write bs).labelled Point.write).Ends middle
        (fun _ fs' => out.stream.Carries number middle fs' bs)
        (fun failure fs' =>
          (failure.1 = .write ∨ failure.1 = .flush) ∧
          Draft file out number fs fs' ∧
          ∃ held, out.stream.Holds number held fs') := by
    apply Step.Ends.labelled
    refine (OutputStream.ends_deliver hHolds bs).fails ?_
    rintro e fs' ⟨held, hCarries⟩
    exact ⟨.inl rfl, h.touches hCarries.touches, held, hCarries.holds⟩
  refine hWrite.bind ?_
  intro _ written hCarries
  apply Step.Ends.labelled
  apply (OutputStream.ends_flushBuffer hCarries.holds).mono
  · rintro _ fs' ⟨hSettled, hTouches⟩
    exact ⟨h.touches (hCarries.touches.trans hTouches), hSettled⟩
  · rintro e _ ⟨_, rfl⟩
    have hTouches :=
      hCarries.touches.trans
        (OutputStream.touches_counted out.stream number written)
    exact ⟨.inr rfl, h.touches hTouches, bs, hCarries.holds⟩

/- A draft is filled, or it is given up. -/
theorem Draft.ends_fill
    {original : Nat}
    (h : Draft file out number fs middle)
    (hFile : fs.IsFile file original)
    (hHolds : out.stream.Holds number [] middle)
    (bs : Bytes) :
    (Step.onFailure out.discard.final
        ((out.write bs).labelled Point.write >>= fun _ =>
          out.flush.labelled Point.flush)).Ends middle
      (fun _ fs' =>
        Draft file out number fs fs' ∧
        out.stream.Settled number bs fs')
      (fun failure fs' => Abandoned file failure.1 fs fs') := by
  apply (h.ends_write hHolds bs).onFailure
  rintro ⟨point, e⟩ failed ⟨hPoint, hFailed, held, hHeld⟩
  rcases hFailed.discard hHeld with ⟨hAlters, hGone⟩
  apply abandoned_of_alters hFile hAlters
  rcases hPoint with rfl | rfl
  · exact hGone
  · exact hGone

/- A draft that is complete is left behind by a failure. -/
theorem Draft.abandoned
    {original : Nat}
    {point : Point}
    {index : FrameIndex}
    (h : Draft file out number fs fs')
    (hFile : fs.IsFile file original)
    (hOwn : IsOf file fs index)
    (hBytes : fs'.bytesOf number = index.toBytes)
    (hPoint : point = .sync ∨ point = .rename) :
    Abandoned file point fs fs' := by
  have hKept :
      ∃ index,
        IsOf file fs index ∧
        fs'.HasFile (temporary (pathFor file)) index.toBytes :=
    ⟨index, hOwn, number, h.isFile, hBytes⟩
  apply abandoned_of_alters hFile h.alters
  rcases hPoint with rfl | rfl
  · exact hKept
  · exact hKept

/- A draft that is complete stays so when it is closed. -/
theorem Draft.ends_close
    {original : Nat}
    {index : FrameIndex}
    (h : Draft file out number fs middle)
    (hFile : fs.IsFile file original)
    (hOwn : IsOf file fs index)
    (hSettled : out.stream.Settled number index.toBytes middle) :
    (out.close.labelled Point.sync).Ends middle
      (fun _ fs' =>
        Draft file out number fs fs' ∧
        fs'.bytesOf number = index.toBytes)
      (fun failure fs' => Abandoned file failure.1 fs fs') := by
  rcases close_of_settled hSettled with
    ⟨done, hClose, hTouches, hBytes⟩
  have hDone := h.touches hTouches
  have hComplete :
      out.close.Ends middle
        (fun _ fs' => fs' = done)
        (fun _ fs' => fs' = done) := by
    apply Step.ends_of_final
    rw [Step.final, hClose]
  apply Step.Ends.labelled
  apply hComplete.mono
  · rintro _ _ rfl
    exact ⟨hDone, hBytes⟩
  · rintro _ _ rfl
    exact hDone.abandoned hFile hOwn hBytes (.inl rfl)

/- The index of a file does not stand for a directory by name. -/
theorem isDirectory_of_pathFor
    (hFile : fs.IsFile file number)
    {new : FileSystem.Place}
    (hNew : fs.place? (pathFor file) = some new) :
    new.isDirectory = false := by
  rcases hFile with ⟨place, hPlace, hName, _⟩
  rcases FileSystem.place?_append hPlace hName with
    ⟨parent, name, _, _, hSuffixed⟩
  rcases hSuffixed ".idx" suffix_index with hNone | hSome
  · rw [pathFor, hNone] at hNew
    contradiction
  · rw [pathFor, hSome] at hNew
    cases hNew
    rfl

/- A draft gets the name of the index, or keeps its own. -/
theorem Draft.ends_rename
    {original : Nat}
    {index : FrameIndex}
    (h : Draft file out number fs middle)
    (hFile : fs.IsFile file original)
    (hOwn : IsOf file fs index)
    (hBytes : middle.bytesOf number = index.toBytes) :
    ((FileSystem.rename (temporary out.target) out.target).labelled
        Point.rename).Ends middle
      (fun _ fs' => Rebuilt file index fs fs')
      (fun failure fs' => Abandoned file failure.1 fs fs') := by
  have hApart :=
    h.alters.directories.apart (apart_temporary hFile.admits)
  rcases h.isFile with ⟨old, hOld, _, hNode⟩
  rw [h.target]
  apply Step.Ends.labelled
  apply (FileSystem.ends_rename hOld hNode hApart).mono
  · rintro _ _ ⟨new, hNew, hFree, rfl⟩
    let counted := middle.counted
    have hSound : counted.Sound := FileSystem.sound_counted h.sound
    have hOld' : counted.place? (temporary (pathFor file)) = some old :=
      (middle.place?_counted _).trans hOld
    have hNew' : counted.place? (pathFor file) = some new :=
      (middle.place?_counted _).trans hNew
    have hNode' : counted.node? old.names = some (.file number) :=
      (middle.node?_counted _).trans hNode
    have hFree' : counted.node? new.names ≠ some .directory := by
      rwa [FileSystem.node?_counted]
    have hDiffers : old.names ≠ new.names := hApart old hOld new hNew
    rcases hSound.alters_moved hOld' hNode' hNew' hFree' hDiffers with
      ⟨hTarget, hMoved⟩
    have hPlace :=
      (hMoved.directories.place?_eq (pathFor file)).trans hNew'
    have hSource :=
      (hMoved.directories.place?_eq _).trans hOld'
    refine ⟨hOwn, ⟨number, ⟨new, hPlace, ?_, ?_⟩, hBytes⟩, ?_, ?_⟩
    · apply isDirectory_of_pathFor hFile
      rw [← h.alters.directories.place?_eq]
      exact hNew
    · rw [← FileSystem.nodeAt?_of_place? hPlace]
      exact hTarget
    · have hAway : ¬ old.names <+: new.names :=
        hSound.place_not_below hNew' (by simp [hNode']) hDiffers
      rw [FileSystem.nodeAt?_of_place? hSource,
        FileSystem.node?_moved_file hSound hNode' hFree' hAway,
        if_neg hDiffers, if_pos rfl]
    · have hCounted := middle.counts_counted.alters [temporary (pathFor file)]
      exact
        ((h.alters.trans hCounted).mono (by simp)).trans hMoved
  · rintro _ _ rfl
    have hTouches :=
      OutputStream.touches_counted out.stream number middle
    exact
      (h.touches hTouches).abandoned hFile hOwn hBytes (.inr rfl)

------------------------------------------------------------
-- Rebuilding
------------------------------------------------------------

/- A scan finds the index of a file and changes nothing. -/
theorem ends_scanFile
    (fs : FileSystem)
    (file : String) :
    ((scanFile file).labelled Point.scan).Ends fs
      (fun index fs' =>
        fs' = fs.counted ∧
        IsOf file fs index ∧
        ∃ number, fs.IsFile file number)
      (fun failure fs' => Abandoned file failure.1 fs fs') := by
  have hFails :
      ∀ (e : Error) fs',
        fs' = fs.counted → Abandoned file .scan fs fs' := by
    rintro e _ rfl
    exact abandoned_of_counts fs.counts_counted (.inl rfl)
  apply Step.Ends.labelled
  refine ((fs.ends_openNode_isFile file).fails hFails).bind ?_
  rintro node _ ⟨rfl, hNode⟩
  have hScan := fs.counted.ends_withSource node Scan.stream
  apply hScan.mono
  · rintro index _ ⟨hFound, rfl⟩
    rcases hNode with rfl | ⟨number, rfl, hFile⟩
    · rw [FileSystem.scan_directory] at hFound
      contradiction
    · let scanned := Scan.stream.perform (.ofBytes (fs.bytesOf number))
      refine
        ⟨rfl, ⟨number, scanned.2, hFile.nodeAt?_eq, ?_⟩, number,
          hFile⟩
      exact Prod.ext hFound rfl
  · rintro e fs' ⟨_, hSame⟩
    exact hFails e fs' hSame

/-
  An index is rebuilt, or what stood under its name is as it
  was. No temporary file stays behind a success; behind a
  failure one stays if it was complete, or if it could not be
  removed.
-/
theorem rebuilt_or_abandoned
    (hSound : fs.Sound)
    (file : String) :
    (staged file).unlabelled = rebuild file ∧
      (staged file).Ends fs
        (fun index fs' => Rebuilt file index fs fs')
        (fun failure fs' => Abandoned file failure.1 fs fs') := by
  refine ⟨unlabelled_staged file, ?_⟩
  refine (ends_scanFile fs file).bind ?_
  rintro index _ ⟨rfl, hOwn, original, hFile⟩
  have hScanned := FileSystem.sound_counted hSound
  refine (ends_begin hScanned fs.counts_counted).bind ?_
  rintro out created ⟨number, hDraft, hHolds⟩
  refine (hDraft.ends_fill hFile hHolds index.toBytes).bind ?_
  rintro _ filled ⟨hFilled, hSettled⟩
  refine (hFilled.ends_close hFile hOwn hSettled).bind ?_
  rintro _ closed ⟨hClosed, hBytes⟩
  refine (hClosed.ends_rename hFile hOwn hBytes).bind ?_
  intro _ renamed hRebuilt
  exact Step.ends_of_ok (Step.perform_pure _ _) hRebuilt

/- An empty stream, and a directory under the name of its index. -/
def blocked : FileSystem :=
  (FileSystem.makeDirectory (pathFor "p")).final
    ((FileSystem.createFile "p").final .empty)

theorem perform_scanFile_blocked :
    (scanFile "p").perform blocked = (.ok .empty, blocked.counted) := by
  have hOpen :
      (FileSystem.openNode "p").perform blocked =
        (.ok (.file 0), blocked.counted) :=
    rfl
  have hBytes : blocked.bytesOf 0 = [] := by decide +kernel
  rcases Scan.perform_stream_of_nil with ⟨next, hScan⟩
  unfold scanFile
  rw [Step.perform_bind_of_ok hOpen]
  unfold FileSystem.withSource
  rw [Step.perform_bind_of_ok (Step.perform_get _),
    Step.perform_ofExcept]
  change ((Scan.stream.perform (.ofBytes (blocked.bytesOf 0))).1, _) = _
  rw [hBytes, hScan]

theorem abandoned_of_blocked :
    blocked.Sound ∧
      ((staged "p").perform blocked).1 =
        .error (.rename, .io .isADirectory) ∧
      Abandoned "p" .rename blocked ((staged "p").final blocked) := by
  have hSound : blocked.Sound :=
    (FileSystem.sound_empty.createFile "p").makeDirectory _
  have hScan :
      ((scanFile "p").labelled Point.scan).perform blocked =
        (.ok .empty, blocked.counted) := by
    rw [Step.perform_labelled, perform_scanFile_blocked]
    rfl
  have hBytes : FrameIndex.empty.toBytes = [] := rfl
  have hFails :
      ((staged "p").perform blocked).1 =
        .error (.rename, .io .isADirectory) := by
    unfold staged
    rw [Step.perform_bind_of_ok hScan]
    simp only [write, hBytes, OutputStream.deliver_nil]
    rfl
  have hEnds := (rebuilt_or_abandoned hSound "p").2
  exact ⟨hSound, hFails, hEnds.of_error (Prod.ext hFails rfl)⟩

/- No directory can be exchanged for the file, which stays. -/
theorem temporary_left_of_blocked :
    blocked.nodeAt? (temporary (pathFor "p")) = none ∧
      ((rebuild "p").perform blocked).1.isOk = false ∧
      ((rebuild "p").final blocked).nodeAt?
          (temporary (pathFor "p")) ≠
        none := by
  have hBytes : FrameIndex.empty.toBytes = [] := rfl
  unfold Step.final rebuild
  rw [Step.perform_bind_of_ok perform_scanFile_blocked]
  simp only [save, write, hBytes, OutputStream.deliver_nil]
  decide +kernel

end IndexFile

end SplitStream
