import SplitStream.Proofs.Command.Endings
import SplitStream.Proofs.Container.Scanning
import SplitStream.Proofs.FrameIndex.Layout
import SplitStream.Proofs.Source.Consumption
import SplitStream.Proofs.Storage.Receivers

/-
  Index files beside other files. What is loaded for a file
  stands under one of the two names of its index; an index is
  put there by being published, and an index that is given up
  is found under neither.

  Main declarations:
    * `IndexFile.ends_load`
    * `IndexFile.Absent`
    * `IndexFile.Agrees`
    * `IndexFile.agrees_of_absent`
    * `IndexFile.agrees_of_present`
    * `IndexFile.close_of_settled`
    * `IndexFile.publish_cases`
-/

------------------------------------------------------------
-- Opening
------------------------------------------------------------

namespace SplitStream

namespace FileSystem

/- What has been opened is the entry of the text. -/
theorem ends_openNode
    (fs : FileSystem)
    (text : String) :
    (openNode text).Ends fs
      (fun node fs' =>
        fs.nodeAt? text = some node ∧ fs' = fs.counted)
      (fun e fs' =>
        (∃ kind, e = .io kind) ∧ fs' = fs.counted) := by
  unfold openNode
  rcases attempt_bind_cases fs _ with
    ⟨kind, _, hPerform⟩ | hPerform
  · exact Step.ends_of_error hPerform ⟨⟨kind, rfl⟩, rfl⟩
  rw [Step.Ends, hPerform]
  rcases locate_cases fs.counted text with
    ⟨place, hLocate, hPlace⟩ | ⟨kind, hLocate, _⟩
  · rw [Step.perform_bind_of_ok hLocate,
      Step.perform_bind_of_ok (Step.perform_get _),
      node?_counted]
    rw [place?_counted] at hPlace
    have hEntry := nodeAt?_of_place? hPlace
    cases hNode : fs.node? place.names with
    | none => exact ⟨⟨.notFound, rfl⟩, rfl⟩
    | some node =>
      rw [hNode] at hEntry
      cases node with
      | directory => exact ⟨hEntry, rfl⟩
      | file number =>
        dsimp only
        cases hDirectory : place.isDirectory with
        | true => exact ⟨⟨.notADirectory, rfl⟩, rfl⟩
        | false => exact ⟨hEntry, rfl⟩
  · rw [Step.perform_bind_of_error hLocate]
    exact ⟨⟨kind, rfl⟩, rfl⟩

/- A directory cannot be read. -/
theorem perform_upTo_directory
    (fs : FileSystem)
    {n : Nat}
    (hSome : 0 < n) :
    ∃ next,
      (Reading.upTo n).perform (fs.sourceOf .directory) =
        (.error (.io .isADirectory), next) := by
  let source := fs.sourceOf .directory
  have hRequest :
      source.request n = (.failed .isADirectory, source.nextTurn) :=
    rfl
  have hGather :
      source.gather n = (.error .isADirectory, source.nextTurn) := by
    rw [Source.gather, Source.gatherFrom,
      if_neg (Nat.ne_of_gt hSome)]
    split <;> rename_i hAnswer <;> rw [hRequest] at hAnswer <;>
      cases hAnswer
    rfl
  refine ⟨source.nextTurn, ?_⟩
  rw [Reading.upTo, Step.perform_ofStep, hGather]
  rfl

/- Reading from an entry changes nothing. -/
theorem ends_withSource
    {α : Type}
    (fs : FileSystem)
    (node : Node)
    (reading : Reading α) :
    (withSource node reading).Ends fs
      (fun a fs' =>
        (reading.perform (fs.sourceOf node)).1 = .ok a ∧
          fs' = fs)
      (fun e fs' =>
        (reading.perform (fs.sourceOf node)).1 = .error e ∧
          fs' = fs) := by
  have hPerform :
      (withSource node reading).perform fs =
        ((reading.perform (fs.sourceOf node)).1, fs) := by
    unfold withSource
    rw [Step.perform_bind_of_ok (Step.perform_get fs),
      Step.perform_ofExcept]
  cases hRead : (reading.perform (fs.sourceOf node)).1 with
  | error e =>
    rw [hRead] at hPerform
    exact Step.ends_of_error hPerform ⟨rfl, rfl⟩
  | ok a =>
    rw [hRead] at hPerform
    exact Step.ends_of_ok hPerform ⟨rfl, rfl⟩

/- All bytes of a file are read to its end. -/
theorem perform_toEnd
    (fs : FileSystem)
    (number : Nat) :
    (withSource (.file number) Reading.toEnd).perform fs =
      (.ok (fs.bytesOf number), fs) := by
  let source := Source.ofBytes (fs.bytesOf number)
  rcases Reading.perform_upTo source (source.remaining + 1) rfl
    with ⟨next, hUpTo, _⟩
  have hAll :
      source.rest.take (source.remaining + 1) =
        fs.bytesOf number := by
    rw [source.remaining_eq,
      List.take_of_length_le (Nat.le_succ _)]
    exact List.drop_zero
  have hToEnd :
      Reading.toEnd.perform source =
        (.ok (fs.bytesOf number), next) := by
    unfold Reading.toEnd
    rw [Step.perform_bind_of_ok (Step.perform_get source),
      hUpTo, hAll]
  unfold withSource
  rw [Step.perform_bind_of_ok (Step.perform_get fs),
    Step.perform_ofExcept]
  exact congrArg (fun outcome => (outcome.1, fs)) hToEnd

end FileSystem

------------------------------------------------------------
-- Loading
------------------------------------------------------------

namespace IndexFile

variable
  {fs fs' : FileSystem} {file : String} {index : FrameIndex}

/- An entry that is not there is no failure. -/
theorem ends_openIfPresent
    (fs : FileSystem)
    (text : String) :
    (openIfPresent text).Ends fs
      (fun found fs' =>
        (∀ node ∈ found, fs.nodeAt? text = some node) ∧
          fs' = fs.counted)
      (fun e fs' =>
        (∃ kind, e = .io kind) ∧ fs' = fs.counted) := by
  have hOpen := fs.ends_openNode text
  rw [Step.Ends, openIfPresent, Step.perform_ofStep]
  rcases hPerform : (FileSystem.openNode text).perform fs with
    ⟨e | node, fs'⟩
  · rcases hOpen.of_error hPerform with ⟨⟨kind, rfl⟩, hCounted⟩
    cases kind with
    | notFound => exact ⟨by simp, hCounted⟩
    | _ => exact ⟨⟨_, rfl⟩, hCounted⟩
  · rcases hOpen.of_ok hPerform with ⟨hNode, hCounted⟩
    exact ⟨by simpa using hNode, hCounted⟩

/- The bytes of a file are read as an index. -/
theorem perform_readFrom
    (fs : FileSystem)
    (number : Nat) :
    (readFrom (.file number)).perform fs =
      (FrameIndex.ofBytes (fs.bytesOf number), fs) := by
  unfold readFrom
  rw [Step.perform_bind_of_ok (fs.perform_toEnd number),
    Step.perform_ofExcept]

theorem perform_readFrom_directory
    (fs : FileSystem) :
    (readFrom .directory).perform fs =
      (.error (.io .isADirectory), fs) := by
  have hRead :
      (Reading.toEnd.perform (fs.sourceOf .directory)).1 =
        .error (.io .isADirectory) := by
    rcases fs.perform_upTo_directory (Nat.succ_pos _) with
      ⟨next, hUpTo⟩
    unfold Reading.toEnd
    rw [Step.perform_bind_of_ok (Step.perform_get _), hUpTo]
  apply Step.perform_bind_of_error
  unfold FileSystem.withSource
  rw [Step.perform_bind_of_ok (Step.perform_get fs),
    Step.perform_ofExcept, hRead]

/- A file under a name of an index reads as a result. -/
def Offers
    (file : String)
    (fs : FileSystem)
    (result : Except Error FrameIndex) : Prop :=
  ∃ number,
    (fs.nodeAt? (pathFor file) = some (.file number) ∨
      fs.nodeAt? (legacyPathFor file) = some (.file number)) ∧
    FrameIndex.ofBytes (fs.bytesOf number) = result

/-
  What is loaded stands under a name of the index. Otherwise
  the device has failed, or what stands there is no index.
-/
theorem ends_load
    (fs : FileSystem)
    (file : String) :
    (load file).Ends fs
      (fun found fs' =>
        (∀ index ∈ found, Offers file fs (.ok index)) ∧
          fs.Intact fs')
      (fun e _ =>
        (∃ kind, e = .io kind) ∨ Offers file fs (.error e)) := by
  have hRead :
      ∀ node seen,
        fs.Intact seen →
        fs.nodeAt? (pathFor file) = some node ∨
            fs.nodeAt? (legacyPathFor file) = some node →
          (readFrom node >>= fun index =>
              (pure (some index) :
                Action FileSystem (Option FrameIndex))).Ends seen
            (fun found fs' =>
              (∀ index ∈ found, Offers file fs (.ok index)) ∧
                fs.Intact fs')
            (fun e _ =>
              (∃ kind, e = .io kind) ∨
                Offers file fs (.error e)) := by
    intro node seen hIntact hNode
    cases node with
    | directory =>
      exact
        Step.ends_of_error
          (Step.perform_bind_of_error
            (perform_readFrom_directory seen))
          (.inl ⟨.isADirectory, rfl⟩)
    | file number =>
      have hPerform := perform_readFrom seen number
      rw [hIntact.bytesOf_eq] at hPerform
      cases hParse : FrameIndex.ofBytes (fs.bytesOf number) with
      | error e =>
        rw [hParse] at hPerform
        exact
          Step.ends_of_error (Step.perform_bind_of_error hPerform)
            (.inr ⟨number, hNode, hParse⟩)
      | ok index =>
        rw [hParse] at hPerform
        refine
          Step.ends_of_ok (Step.perform_bind_of_ok hPerform)
            ⟨?_, hIntact⟩
        intro other hOther
        cases hOther
        exact ⟨number, hNode, hParse⟩
  have hOpen :=
    (ends_openIfPresent fs (pathFor file)).fails
      fun e _ hFails =>
        (.inl hFails.1 :
          (∃ kind, e = .io kind) ∨ Offers file fs (.error e))
  refine hOpen.bind ?_
  rintro (_ | node) _ ⟨hNode, rfl⟩
  · have hLegacy :=
      (ends_openIfPresent fs.counted (legacyPathFor file)).fails
        fun e _ hFails =>
          (.inl hFails.1 :
            (∃ kind, e = .io kind) ∨ Offers file fs (.error e))
    have hIntact :=
      (FileSystem.intact_counted fs).trans
        (FileSystem.intact_counted fs.counted)
    refine hLegacy.bind ?_
    rintro (_ | node) _ ⟨hNode, rfl⟩
    · exact Step.ends_of_ok rfl ⟨by simp, hIntact⟩
    · have hEntry := hNode node rfl
      rw [FileSystem.nodeAt?_counted] at hEntry
      exact hRead node _ hIntact (.inr hEntry)
  · exact
      hRead node _ (FileSystem.intact_counted fs)
        (.inl (hNode node rfl))

theorem perform_openIfPresent
    {text : String}
    {found : Option Node}
    (hOpen :
      ((openIfPresent text).perform fs).1.toOption = some found) :
    (openIfPresent text).perform fs = (.ok found, fs.counted) := by
  rcases hPerform : (openIfPresent text).perform fs with
    ⟨e | other, seen⟩
  · rw [hPerform] at hOpen
    cases hOpen
  · have hSeen : seen = fs.counted :=
      ((ends_openIfPresent fs text).of_ok hPerform).2
    rw [hPerform] at hOpen
    cases hOpen
    rw [hSeen]

/- An index is loaded from an entry that can be opened. -/
theorem perform_load_of_opened
    {number : Nat}
    (hOpen :
      ((openIfPresent (pathFor file)).perform fs).1.toOption =
        some (some (.file number)))
    (hParse :
      FrameIndex.ofBytes (fs.bytesOf number) = .ok index) :
    (load file).perform fs = (.ok (some index), fs.counted) := by
  have hRead :
      (readFrom (.file number)).perform fs.counted =
        (.ok index, fs.counted) := by
    rw [perform_readFrom]
    exact Prod.ext hParse rfl
  unfold load
  rw [Step.perform_bind_of_ok (perform_openIfPresent hOpen)]
  exact Step.perform_bind_of_ok hRead

/- The older name is tried where there is no entry. -/
theorem perform_load_of_legacy
    {number : Nat}
    (hNone :
      ((openIfPresent (pathFor file)).perform fs).1.toOption =
        some none)
    (hOpen :
      ((openIfPresent (legacyPathFor file)).perform
          fs.counted).1.toOption =
        some (some (.file number)))
    (hParse :
      FrameIndex.ofBytes (fs.bytesOf number) = .ok index) :
    (load file).perform fs =
      (.ok (some index), fs.counted.counted) := by
  have hRead :
      (readFrom (.file number)).perform fs.counted.counted =
        (.ok index, fs.counted.counted) := by
    rw [perform_readFrom]
    exact Prod.ext hParse rfl
  unfold load
  rw [Step.perform_bind_of_ok (perform_openIfPresent hNone),
    Step.perform_bind_of_ok (perform_openIfPresent hOpen)]
  exact Step.perform_bind_of_ok hRead

------------------------------------------------------------
-- Agreement
------------------------------------------------------------

/- There is nothing under the name of the index of a file. -/
def Hidden
    (file : String)
    (fs : FileSystem) : Prop :=
  fs.nodeAt? (pathFor file) = none

theorem Hidden.sameNames
    (hHidden : Hidden file fs)
    (hSame : fs.SameNames fs') :
    Hidden file fs' :=
  (hSame.nodeAt?_eq _).trans hHidden

/- There is nothing under the names of the index of a file. -/
structure Absent
    (file : String)
    (fs : FileSystem) : Prop where
  index : fs.nodeAt? (pathFor file) = none
  legacy : fs.nodeAt? (legacyPathFor file) = none

theorem Absent.sameNames
    (hAbsent : Absent file fs)
    (hSame : fs.SameNames fs') :
    Absent file fs' where
  index := (hSame.nodeAt?_eq _).trans hAbsent.index
  legacy := (hSame.nodeAt?_eq _).trans hAbsent.legacy

/- A stream that is given up brings no index in. -/
theorem Absent.discard
    (hAbsent : Absent file fs)
    (data : OutputStream) :
    Absent file (data.discard.final fs) :=
  hAbsent.sameNames (OutputStream.sameNames_discard data fs)

/- The index is the one that a scan of a file finds. -/
def IsOf
    (file : String)
    (fs : FileSystem)
    (index : FrameIndex) : Prop :=
  ∃ number rest,
    fs.nodeAt? file = some (.file number) ∧
    Scan.stream.perform (.ofBytes (fs.bytesOf number)) =
      (.ok index, rest)

/-
  An index that is loaded for a file is the file's own. Only
  the device can keep it from being loaded.
-/
def Agrees
    (file : String)
    (fs : FileSystem) : Prop :=
  (load file).Ends fs
    (fun found _ => ∀ index ∈ found, IsOf file fs index)
    (fun e _ => ∃ kind, e = .io kind)

/- Without a file under its names, no index is offered. -/
theorem Absent.not_offers
    (hAbsent : Absent file fs)
    (result : Except Error FrameIndex) :
    ¬ Offers file fs result := by
  rintro ⟨number, hNode | hNode, _⟩
  · rw [hAbsent.index] at hNode
    contradiction
  · rw [hAbsent.legacy] at hNode
    contradiction

theorem agrees_of_absent
    (hAbsent : Absent file fs) :
    Agrees file fs := by
  apply (ends_load fs file).mono
  · intro found _ hFound index hIndex
    exact absurd (hFound.1 index hIndex) (hAbsent.not_offers _)
  · intro e _ hFails
    exact hFails.resolve_right (hAbsent.not_offers _)

/- The index that a scan of a file finds stands beside it. -/
def Whole
    (file : String)
    (fs : FileSystem) : Prop :=
  ∃ number indexNumber index,
    fs.nodeAt? file = some (.file number) ∧
    fs.nodeAt? (pathFor file) = some (.file indexNumber) ∧
    Scan.Finds Scan.stream (fs.bytesOf number) index ∧
    index.StoredAs (fs.bytesOf indexNumber)
      (fs.bytesOf number).length

/-
  The index that a scan of a file finds stands beside it, and
  none stands under the other name.
-/
structure Present
    (file : String)
    (fs : FileSystem) : Prop where
  legacy : fs.nodeAt? (legacyPathFor file) = none
  index :
    ∃ number indexNumber index,
      fs.nodeAt? file = some (.file number) ∧
      fs.nodeAt? (pathFor file) = some (.file indexNumber) ∧
      Scan.Finds Scan.stream (fs.bytesOf number) index ∧
      index.StoredAs (fs.bytesOf indexNumber)
        (fs.bytesOf number).length

/- Nothing but the index of the file is offered. -/
theorem Present.isOf_of_offers
    (hPresent : Present file fs)
    (hLength :
      ∀ number,
        (fs.bytesOf number).length ≤ FileSystem.positionLimit)
    {result : Except Error FrameIndex}
    (hOffers : Offers file fs result) :
    ∃ index, result = .ok index ∧ IsOf file fs index := by
  rcases hPresent.index with
    ⟨number, indexNumber, index, hFile, hIndex, hScan, hStored⟩
  rcases hOffers with ⟨other, hNode | hNode, hParse⟩
  · rw [hIndex] at hNode
    cases hNode
    have hWord :
        FileSystem.positionLimit ≤
          Bytes.wordCount FrameIndex.entrySize := by
      decide
    rw [hStored.parsed (Nat.le_trans (hLength number) hWord)]
      at hParse
    rcases hScan .prompt with ⟨rest, hFound⟩
    exact ⟨index, hParse.symm, number, rest, hFile, hFound⟩
  · rw [hPresent.legacy] at hNode
    contradiction

theorem agrees_of_present
    (hPresent : Present file fs)
    (hLength :
      ∀ number,
        (fs.bytesOf number).length ≤ FileSystem.positionLimit) :
    Agrees file fs := by
  apply (ends_load fs file).mono
  · intro found _ hFound index hIndex
    rcases hPresent.isOf_of_offers hLength
      (hFound.1 index hIndex) with ⟨other, hOk, hIsOf⟩
    cases hOk
    exact hIsOf
  · intro e _ hFails
    rcases hFails with hDevice | hOffers
    · exact hDevice
    · rcases hPresent.isOf_of_offers hLength hOffers with
        ⟨other, hOk, _⟩
      cases hOk

------------------------------------------------------------
-- Publishing
------------------------------------------------------------

/- Names that other files are known by. -/
theorem suffix_index : Path.Suffix ".idx" where
  slash := by decide
  zero := by decide
  long := by decide

theorem suffix_legacy : Path.Suffix ".index" where
  slash := by decide
  zero := by decide
  long := by decide

theorem suffix_temporary : Path.Suffix ".idx.tmp" where
  slash := by decide
  zero := by decide
  long := by decide

theorem temporary_pathFor
    (file : String) :
    temporary (pathFor file) = file ++ ".idx.tmp" := by
  unfold temporary pathFor
  rw [String.append_assoc]
  rfl

/- An index that is given up brings no name in. -/
theorem nodeAt?_discard_eq_none
    (index : IndexFile)
    {text : String}
    (hNone : fs.nodeAt? text = none) :
    (index.discard.final fs).nodeAt? text = none := by
  let middle := index.stream.discard.final fs
  have hSame : fs.SameNames middle :=
    OutputStream.sameNames_discard index.stream fs
  have hMiddle := (hSame.nodeAt?_eq text).trans hNone
  exact
    (FileSystem.thins_removeFile middle _).nodeAt?_eq_none
      hMiddle

theorem absent_discard
    (index : IndexFile)
    (hAbsent : Absent file fs) :
    Absent file (index.discard.final fs) where
  index := nodeAt?_discard_eq_none index hAbsent.index
  legacy := nodeAt?_discard_eq_none index hAbsent.legacy

/- Have an index stored, before it gets its name. -/
def close
    (index : IndexFile) : Action FileSystem Unit :=
  Step.ensuring index.stream.discard.final
    (index.stream.flushBuffer >>= fun _ => index.stream.sync)

theorem publish_eq
    (index : IndexFile) :
    index.publish =
      index.close >>= fun _ =>
        FileSystem.rename (temporary index.target) index.target >>=
          fun _ => pure index.target :=
  rfl

/- What is stored are the bytes that the index has been given. -/
theorem close_of_settled
    {index : IndexFile}
    {number : Nat}
    {bytes : Bytes}
    (hSettled : index.stream.Settled number bytes fs) :
    ∃ done,
      index.close.perform fs =
        ((FileSystem.attempt.perform fs).1, done) ∧
      index.stream.Touches number fs done ∧
      done.bytesOf number = bytes := by
  have hCounted : index.stream.Settled number bytes fs.counted :=
    ⟨hSettled.state, hSettled.bytes⟩
  rcases OutputStream.discard_of_settled hCounted with
    ⟨hDiscard, hBytes⟩
  have hInner :
      (index.stream.flushBuffer >>= fun _ =>
          index.stream.sync).perform fs =
        FileSystem.attempt.perform fs :=
    Step.perform_bind_of_ok
      (OutputStream.flushBuffer_of_settled hSettled)
  have hFinal :
      (index.stream.flushBuffer >>= fun _ =>
          index.stream.sync).final fs =
        fs.counted := by
    rw [Step.final, hInner, FileSystem.perform_attempt]
  refine ⟨index.stream.discard.final fs.counted, ?_, ?_, hBytes⟩
  · rw [close, Step.perform_ensuring, hInner, hFinal]
  · exact
      (OutputStream.touches_counted index.stream number fs).trans
        hDiscard

/-
  Publishing a settled index fails without changing a name,
  or the index has got its name. It does not fail in a tree
  where nothing fails, if both names can be those of files.
-/
theorem publish_cases
    {index : IndexFile}
    {number : Nat}
    {bytes : Bytes}
    {old : FileSystem.Place}
    (hSettled : index.stream.Settled number bytes fs)
    (hOld : fs.place? (temporary index.target) = some old)
    (hFile : fs.node? old.names = some (.file number))
    (hFree :
      ∀ new ∈ fs.place? index.target,
        old.names ≠ new.names ∧
          fs.node? new.names ≠ some .directory) :
    (∃ e fs',
      index.publish.perform fs = (.error e, fs') ∧
      fs.SameNames fs' ∧
      ¬ (fs.Calm ∧
          fs.Admits (temporary index.target) ∧
          fs.Admits index.target)) ∨
    ∃ new middle,
      index.publish.perform fs =
        (.ok index.target, middle.moved old.names new.names) ∧
      fs.place? index.target = some new ∧
      index.stream.Touches number fs middle ∧
      middle.bytesOf number = bytes := by
  rcases close_of_settled hSettled with
    ⟨done, hStored, hTouches, hBytes⟩
  rw [FileSystem.perform_attempt] at hStored
  rw [publish_eq]
  cases hFault : fs.faults fs.step with
  | some kind =>
    left
    refine ⟨.io kind, done, ?_, hTouches.sameNames, ?_⟩
    · apply Step.perform_bind_of_error
      rw [hStored, hFault]
    · rintro ⟨hCalm, _⟩
      rw [hCalm] at hFault
      contradiction
  | none =>
    have hSame := hTouches.sameNames
    rw [hFault] at hStored
    rw [Step.perform_bind_of_ok hStored]
    rw [← hSame.place?_eq] at hOld
    rw [← hSame.node?_eq] at hFile
    have hFree' :
        ∀ new ∈ done.place? index.target,
          old.names ≠ new.names ∧
            done.node? new.names ≠ some .directory := by
      intro new hNew
      rw [hSame.place?_eq] at hNew
      rw [hSame.node?_eq]
      exact hFree new hNew
    rcases FileSystem.rename_cases hOld hFile hFree' with
      ⟨e, hRename, hHinders⟩ | ⟨new, hRename, hNew⟩
    · left
      refine
        ⟨e, done.counted, Step.perform_bind_of_error hRename,
          hSame.trans (FileSystem.sameNames_counted done), ?_⟩
      rintro ⟨hCalm, hTemporary, hTarget⟩
      have hCalm' := hTouches.calm hCalm
      have hDirectories := hSame.sameDirectories
      rcases hHinders with hSource | hOther
      · exact
          hCalm'.not_hinders (hDirectories.admits hTemporary)
            hSource
      · exact
          hCalm'.not_hinders (hDirectories.admits hTarget) hOther
    · right
      rw [hSame.place?_eq] at hNew
      refine
        ⟨new, done.counted, Step.perform_bind_of_ok hRename, hNew,
          ?_, hBytes⟩
      exact
        hTouches.trans
          (OutputStream.touches_counted index.stream number done)

end IndexFile

end SplitStream
