import SplitStream.Proofs.Storage.Alterations
import SplitStream.Proofs.Storage.IndexFiles

/-
  What operations do in sound trees where nothing fails. They
  succeed on every name that can be one of a file: files that
  are there are opened, and bytes that are written to a file
  are the bytes that it has.

  Main declarations:
    * `FileSystem.openNode_of_isFile`
    * `OutputStream.Feeds`
    * `OutputStream.succeeds_create`
    * `OutputStream.Feeds.deliver`
    * `OutputStream.Feeds.discard`
    * `FileSystem.succeeds_putFile`
    * `IndexFile.succeeds_publish`
    * `IndexFile.succeeds_save`
-/

------------------------------------------------------------
-- Opening
------------------------------------------------------------

namespace SplitStream

namespace FileSystem

variable
  {fs : FileSystem} {text : String} {number : Nat}
  {bytes : Bytes}

theorem perform_locate_of_place?
    {place : Place}
    (hPlace : fs.place? text = some place) :
    (locate text).perform fs = (.ok place, fs) := by
  rcases locate_cases fs text with
    ⟨other, hLocate, hOther⟩ | ⟨kind, _, hNone⟩
  · rw [hPlace] at hOther
    cases hOther
    exact hLocate
  · rw [hPlace] at hNone
    contradiction

/- A file that is there is opened. -/
theorem openNode_of_isFile
    (hCalm : fs.Calm)
    (hFile : fs.IsFile text number) :
    (openNode text).perform fs = (.ok (.file number), fs.counted) := by
  rcases hFile with ⟨place, hPlace, hName, hNode⟩
  rw [← place?_counted] at hPlace
  unfold openNode
  rw [Step.perform_bind_of_ok hCalm.perform_attempt,
    Step.perform_bind_of_ok (perform_locate_of_place? hPlace),
    Step.perform_bind_of_ok (Step.perform_get _), node?_counted,
    hNode]
  simp only [hName, Bool.false_eq_true, if_false]
  rfl

/- A file that is not there is not found. -/
theorem openNode_of_absent
    (hCalm : fs.Calm)
    (hAdmits : fs.Admits text)
    (hNone : fs.nodeAt? text = none) :
    (openNode text).perform fs =
      (.error (.io .notFound), fs.counted) := by
  rcases hAdmits with ⟨place, hPlace, _, _⟩
  rw [nodeAt?_of_place? hPlace] at hNone
  rw [← place?_counted] at hPlace
  unfold openNode
  rw [Step.perform_bind_of_ok hCalm.perform_attempt,
    Step.perform_bind_of_ok (perform_locate_of_place? hPlace),
    Step.perform_bind_of_ok (Step.perform_get _), node?_counted,
    hNone]
  rfl

/- The size of a file is the number of its bytes. -/
theorem succeeds_fileSize
    (hCalm : fs.Calm)
    (hHas : fs.HasFile text bytes) :
    (fileSize text).Succeeds fs
      (fun size fs' => size = bytes.length ∧ fs' = fs.counted) := by
  rcases hHas with ⟨number, hFile, rfl⟩
  apply Step.ends_of_ok
  · unfold fileSize
    rw [Step.perform_bind_of_ok (openNode_of_isFile hCalm hFile)]
    rfl
  · exact ⟨rfl, rfl⟩

end FileSystem

------------------------------------------------------------
-- Feeding Files
------------------------------------------------------------

namespace OutputStream

variable
  {stream : OutputStream} {fs fs' : FileSystem} {text : String}
  {bytes : Bytes}

/-
  In a sound tree where nothing fails, bytes have been given
  to a stream for the file of a name.
-/
structure Feeds
    (stream : OutputStream)
    (text : String)
    (bytes : Bytes)
    (fs : FileSystem) : Prop where
  sound : fs.Sound
  calm : fs.Calm
  used : stream.number < fs.next
  holds :
    ∃ file, fs.IsFile text file ∧ stream.Holds file bytes fs

/- A file that has been created is fed with no bytes. -/
theorem Created.feeds
    {file : Nat}
    {place : FileSystem.Place}
    (h : Created stream file place.names fs fs')
    (hCalm : fs.Calm)
    (hPlace : fs.place? text = some place)
    (hFile : place.isDirectory = false) :
    stream.Feeds text [] fs' where
  sound := h.sound
  calm := (h.alters hPlace).calm hCalm
  used := h.used
  holds := ⟨file, h.isFile hPlace hFile, h.holds⟩

/- A file can be created under every name of a file. -/
theorem created_of_calm
    (hSound : fs.Sound)
    (hCalm : fs.Calm)
    (hAdmits : fs.Admits text) :
    ∃ stream file place fs',
      (create text).perform fs = (.ok stream, fs') ∧
      fs.place? text = some place ∧
      place.isDirectory = false ∧
      Created stream file place.names fs fs' := by
  rcases create_cases hSound text with ⟨_, _, hHinders⟩ | hCreated
  · exact absurd hHinders (hCalm.not_hinders hAdmits)
  · exact hCreated

theorem succeeds_create
    (hSound : fs.Sound)
    (hCalm : fs.Calm)
    (hAdmits : fs.Admits text) :
    (create text).Succeeds fs
      (fun stream fs' =>
        stream.Feeds text [] fs' ∧ fs.Alters [text] fs') := by
  rcases created_of_calm hSound hCalm hAdmits with
    ⟨stream, file, place, fs', hCreate, hPlace, hFile, hCreated⟩
  exact
    Step.ends_of_ok hCreate
      ⟨hCreated.feeds hCalm hPlace hFile, hCreated.alters hPlace⟩

/- What touches a file that is fed alters this file only. -/
theorem Feeds.alters_of_touches
    {file : Nat}
    (h : stream.Feeds text bytes fs)
    (hFile : fs.IsFile text file)
    (hTouches : stream.Touches file fs fs') :
    fs.Alters [text] fs' :=
  (FileSystem.fills_of_touches hTouches hFile).alters h.sound

theorem Feeds.touched
    {file : Nat}
    {more : Bytes}
    (h : stream.Feeds text bytes fs)
    (hFile : fs.IsFile text file)
    (hTouches : stream.Touches file fs fs')
    (hHolds : stream.Holds file more fs') :
    stream.Feeds text more fs' where
  sound := hTouches.sameNames.sound h.sound
  calm := hTouches.calm h.calm
  used := by
    rw [hTouches.next]
    exact h.used
  holds := ⟨file, hTouches.sameNames.isFile hFile, hHolds⟩

/- All bytes are delivered. -/
theorem Feeds.deliver
    (h : stream.Feeds text bytes fs)
    (bs : Bytes) :
    (stream.deliver bs).Succeeds fs
      (fun _ fs' =>
        stream.Feeds text (bytes ++ bs) fs' ∧
        fs.Alters [text] fs') := by
  rcases h.holds with ⟨file, hFile, hHolds⟩
  have hAccepts :
      stream.channel.Accepts fun fs' held =>
        (fs'.Calm ∧ stream.Touches file fs fs') ∧
          stream.Holds file held fs' := by
    apply accepts_channel
    · rintro fs' held ⟨⟨hCalm, _⟩, hHeld⟩
      exact ⟨hCalm, hHeld⟩
    · rintro middle fs' held more ⟨⟨hCalm, hTouches⟩, _⟩ hMore hHeld
      exact
        ⟨⟨hMore.calm hCalm, hTouches.trans hMore⟩, hHeld⟩
  rcases hAccepts.deliver bs ⟨⟨h.calm, .refl _ _ _⟩, hHolds⟩ with
    ⟨fs', hDeliver, ⟨_, hTouches⟩, hAfter⟩
  have hPerform : (stream.deliver bs).perform fs = (.ok (), fs') := by
    unfold OutputStream.deliver
    rw [Step.perform_ofStep, hDeliver]
    rfl
  exact
    Step.ends_of_ok hPerform
      ⟨h.touched hFile hTouches hAfter,
        h.alters_of_touches hFile hTouches⟩

theorem Feeds.flushBuffer
    (h : stream.Feeds text bytes fs) :
    stream.flushBuffer.Succeeds fs
      (fun _ fs' =>
        stream.Feeds text bytes fs' ∧ fs.Alters [text] fs') := by
  rcases h.holds with ⟨file, hFile, hHolds⟩
  rcases flushBuffer_of_calm h.calm hHolds with
    ⟨fs', hFlush, hSettled, hTouches⟩
  exact
    Step.ends_of_ok hFlush
      ⟨h.touched hFile hTouches hSettled.holds,
        h.alters_of_touches hFile hTouches⟩

/- A stream that is given up has handed over its bytes. -/
theorem discard_of_calm
    {file : Nat}
    (hCalm : fs.Calm)
    (hHolds : stream.Holds file bytes fs) :
    stream.Touches file fs (stream.discard.final fs) ∧
      (stream.discard.final fs).bytesOf file = bytes := by
  rcases flushBuffer_of_calm hCalm hHolds with
    ⟨flushed, hFlush, hSettled, hTouches⟩
  have hFinal :
      stream.discard.final fs = stream.discard.final flushed := by
    have hBoth :
        stream.flushBuffer.final fs =
          stream.flushBuffer.final flushed := by
      unfold Step.final
      rw [hFlush, flushBuffer_of_settled hSettled]
    unfold Step.final OutputStream.discard
    rw [Step.perform_bind_of_ok (Step.perform_modify _ fs),
      Step.perform_bind_of_ok (Step.perform_modify _ flushed),
      hBoth]
  rcases discard_of_settled hSettled with ⟨hMore, hBytes⟩
  rw [hFinal]
  exact ⟨hTouches.trans hMore, hBytes⟩

theorem Feeds.discard
    (h : stream.Feeds text bytes fs) :
    (stream.discard.final fs).HasFile text bytes ∧
      fs.Alters [text] (stream.discard.final fs) := by
  rcases h.holds with ⟨file, hFile, hHolds⟩
  rcases discard_of_calm h.calm hHolds with ⟨hTouches, hBytes⟩
  exact
    ⟨⟨file, hTouches.sameNames.isFile hFile, hBytes⟩,
      h.alters_of_touches hFile hTouches⟩

end OutputStream

------------------------------------------------------------
-- Whole Files
------------------------------------------------------------

namespace FileSystem

variable {fs : FileSystem} {text : String}

theorem succeeds_createFile
    (hSound : fs.Sound)
    (hCalm : fs.Calm)
    (hAdmits : fs.Admits text) :
    (createFile text).Succeeds fs
      (fun number fs' =>
        fs'.IsFile text number ∧
        fs'.bytesOf number = [] ∧
        fs.Alters [text] fs') := by
  rcases OutputStream.created_of_calm hSound hCalm hAdmits with
    ⟨stream, file, place, opened, hCreate, hPlace, hFile, hCreated⟩
  rcases Step.ok_of_perform_bind hCreate with
    ⟨number, fs', hPerform, hOpen⟩
  -- Opening a stream to the file changes no name and no byte.
  have hIntact : fs'.Intact opened := by
    cases hOpen
    exact ⟨rfl, rfl⟩
  have hFaults : opened.faults = fs'.faults := by
    cases hOpen
    rfl
  have hSame : number = file := by
    have hState := hCreated.state
    cases hOpen
    rw [Table.get?_set_self] at hState
    cases hState
    rfl
  have hAlters := hCreated.alters hPlace
  have hDirectories : SameDirectories fs fs' := by
    intro names
    rw [← node?_congr hIntact.nodes]
    exact hAlters.directories names
  rw [hSame] at hPerform
  refine Step.ends_of_ok hPerform ⟨⟨place, ?_, hFile, ?_⟩, ?_, ?_⟩
  · exact (hDirectories.place?_eq text).trans hPlace
  · rw [← node?_congr hIntact.nodes]
    exact hCreated.entry
  · rw [← hIntact.bytesOf_eq]
    exact hCreated.empty
  · exact
      { directories := hDirectories
        faults := hFaults.symm.trans hAlters.faults
        sound := by
          intro _
          have hFinal := hSound.createFile text
          rwa [Step.final, hPerform] at hFinal
        nodes := by
          intro other hAvoids
          rw [← hIntact.nodeAt?_eq]
          exact hAlters.nodes other hAvoids
        bytes := by
          intro other number hAvoids hNode
          rw [← hIntact.bytesOf_eq]
          exact hAlters.bytes other number hAvoids hNode }

/- A file is made that has the given bytes. -/
theorem succeeds_putFile
    (hSound : fs.Sound)
    (hCalm : fs.Calm)
    (hAdmits : fs.Admits text)
    (bs : Bytes) :
    (putFile text bs).Succeeds fs
      (fun _ fs' => fs'.HasFile text bs ∧ fs.Alters [text] fs') := by
  refine (succeeds_createFile hSound hCalm hAdmits).bind ?_
  rintro number created ⟨hFile, hEmpty, hAlters⟩
  rcases (hAlters.calm hCalm).writeAt_end number bs with
    ⟨tape, hWrite, hTape⟩
  rw [hEmpty] at hWrite hTape
  have hFills :
      Fills [text] created (created.counted.stored number tape) :=
    { nodes := rfl
      next := rfl
      faults := rfl
      bytes := by
        intro other hElsewhere
        apply bytesOf_stored
        rintro rfl
        exact hElsewhere text List.mem_cons_self hFile.nodeAt?_eq }
  have hMore := hFills.alters (hAlters.sound hSound)
  apply Step.ends_of_ok hWrite
  refine ⟨⟨number, hFills.sameNames.isFile hFile, ?_⟩, ?_⟩
  · rw [bytesOf_stored_self, hTape, List.nil_append]
  · exact hAlters.trans hMore

end FileSystem

/- What may be there is removed, and no other file is. -/
theorem ContainerFile.succeeds_removeIfPresent
    {fs : FileSystem}
    {text : String}
    (hCalm : fs.Calm)
    (hAdmits : fs.Admits text) :
    (removeIfPresent text).Succeeds fs
      (fun _ fs' =>
        fs.Thins fs' ∧
        fs'.nodeAt? text = none ∧
        fs.Alters [text] fs') := by
  have hFault : fs.faults fs.step ≠ some .notFound := by
    simp [hCalm fs.step]
  rcases removeIfPresent_cases text fun _ => hFault with
    ⟨_, _, hHinders⟩ | ⟨fs', hRemove, hThins, hNone, hOthers⟩
  · exact absurd hHinders (hCalm.not_hinders hAdmits)
  · refine Step.ends_of_ok hRemove ⟨hThins, hNone, ?_⟩
    exact
      { directories := hThins.sameDirectories
        faults := hThins.faults
        sound := hThins.sound
        nodes := fun other hAvoids =>
          hOthers other (hAvoids text List.mem_cons_self)
        bytes := by
          intro _ number _ _
          unfold FileSystem.bytesOf
          rw [hThins.files] }

------------------------------------------------------------
-- Indexes
------------------------------------------------------------

/- Moving a file alters its old name and its new one. -/
theorem FileSystem.Sound.alters_moved
    {fs : FileSystem}
    {source target : String}
    {number : Nat}
    {old new : Place}
    (hSound : fs.Sound)
    (hOld : fs.place? source = some old)
    (hFile : fs.node? old.names = some (.file number))
    (hNew : fs.place? target = some new)
    (hFree : fs.node? new.names ≠ some .directory)
    (hDiffers : old.names ≠ new.names) :
    (fs.moved old.names new.names).nodeAt? target =
        some (.file number) ∧
      fs.Alters [source, target]
        (fs.moved old.names new.names) := by
  rcases nodeAt?_moved hSound hOld hFile hNew hFree hDiffers with
    ⟨hTarget, hDirectories, hOthers⟩
  refine ⟨hTarget, ?_⟩
  exact
    { directories := hDirectories
      faults := rfl
      sound := fun _ =>
        hSound.moved_of_place? hNew (by simp [hFile])
          (hSound.place_not_below hNew (by simp [hFile]) hDiffers)
          fun _ hRest => hSound.node?_below hFree hRest
      nodes := fun text hAvoids =>
        hOthers text (hAvoids source (by simp))
          (hAvoids target (by simp))
      bytes := fun _ _ _ _ => rfl }

namespace IndexFile

variable {index : IndexFile} {fs : FileSystem} {bytes : Bytes}

/- Publishing hands over what is in the buffer first. -/
theorem publish_of_flushed
    {flushed : FileSystem}
    (hFlush :
      index.stream.flushBuffer.perform fs = (.ok (), flushed))
    (hAgain :
      index.stream.flushBuffer.perform flushed =
        (.ok (), flushed)) :
    index.publish.perform fs = index.publish.perform flushed := by
  have hBoth :
      (index.stream.flushBuffer >>= fun _ =>
          index.stream.sync).perform fs =
        (index.stream.flushBuffer >>= fun _ =>
          index.stream.sync).perform flushed := by
    rw [Step.perform_bind_of_ok hFlush,
      Step.perform_bind_of_ok hAgain]
  have hStored : index.close.perform fs = index.close.perform flushed := by
    simp only [close, Step.perform_ensuring, Step.final, hBoth]
  rw [publish_eq, Step.perform_bind, hStored, ← Step.perform_bind]

/-
  Publishing gives the bytes that were written to an index
  its name. Other streams are as they were.
-/
theorem succeeds_publish
    (h : index.stream.Feeds (temporary index.target) bytes fs)
    (hTarget : fs.Admits index.target)
    (hApart : fs.Apart (temporary index.target) index.target) :
    index.publish.Succeeds fs
      (fun _ fs' =>
        fs'.HasFile index.target bytes ∧
        fs.Alters [temporary index.target, index.target] fs' ∧
        fs'.next = fs.next ∧
        ∀ other, other ≠ index.stream.number →
          fs'.streams.get? other = fs.streams.get? other) := by
  rcases h.holds with ⟨number, hFile, hHolds⟩
  rcases OutputStream.flushBuffer_of_calm h.calm hHolds with
    ⟨flushed, hFlush, hSettled, hTouches⟩
  have hSame := hTouches.sameNames
  have hSound := hSame.sound h.sound
  have hTemporary := hSame.isFile hFile
  rcases hTemporary with ⟨old, hOld, _, hNode⟩
  have hApart' := hSame.sameDirectories.apart hApart
  rcases hSame.sameDirectories.admits hTarget with
    ⟨new, hNew, hName, hFree⟩
  have hPlaces :
      ∀ place ∈ flushed.place? index.target,
        old.names ≠ place.names ∧
          flushed.node? place.names ≠ some .directory := by
    intro place hPlace
    rw [hNew] at hPlace
    cases hPlace
    exact ⟨hApart' old hOld new hNew, hFree⟩
  rcases publish_cases hSettled hOld hNode hPlaces with
    ⟨_, _, _, _, hFails⟩ |
      ⟨place, middle, hPublish, hPlace, hMore, hBytes⟩
  · exact
      absurd
        ⟨hTouches.calm h.calm,
          hSame.sameDirectories.admits hFile.admits,
          hSame.sameDirectories.admits hTarget⟩
        hFails
  rw [hNew] at hPlace
  cases hPlace
  have hAll := hTouches.trans hMore
  have hNames := hMore.sameNames
  rw [← hNames.place?_eq] at hOld hNew
  rw [← hNames.node?_eq] at hNode hFree
  rcases (hNames.sound hSound).alters_moved hOld hNode hNew hFree
    (hPlaces new (by rw [← hNames.place?_eq]; exact hNew)).1 with
    ⟨hMoved, hAlters⟩
  rw [← publish_of_flushed hFlush
    (OutputStream.flushBuffer_of_settled hSettled)] at hPublish
  apply Step.ends_of_ok hPublish
  refine ⟨⟨number, ?_, hBytes⟩, ?_, hAll.next, hAll.streams⟩
  · have hPlace :=
      (hAlters.directories.place?_eq index.target).trans hNew
    refine ⟨new, hPlace, hName, ?_⟩
    rw [← hMoved, FileSystem.nodeAt?_of_place? hPlace]
  · exact
      ((h.alters_of_touches hFile hAll).mono (by simp)).trans
        hAlters

/- The name of an index stands for another file before it is complete. -/
theorem apart_temporary
    {file : String}
    (hAdmits : fs.Admits file) :
    fs.Apart (temporary (pathFor file)) (pathFor file) := by
  rcases hAdmits with ⟨place, hPlace, hFile, _⟩
  rw [temporary_pathFor]
  exact
    FileSystem.apart_suffixes hPlace hFile suffix_temporary
      suffix_index (by decide)

/- The index of a file is written beside it. -/
theorem succeeds_save
    {file : String}
    (hSound : fs.Sound)
    (hCalm : fs.Calm)
    (hFile : fs.Admits file)
    (hTemporary : fs.Admits (temporary (pathFor file)))
    (hTarget : fs.Admits (pathFor file))
    (found : FrameIndex) :
    (save found file).Succeeds fs
      (fun _ fs' =>
        fs'.HasFile (pathFor file) found.toBytes ∧
        fs.Alters [temporary (pathFor file), pathFor file]
          fs') := by
  have hCreate :
      (create (pathFor file)).Succeeds fs
        (fun index fs' =>
          index.target = pathFor file ∧
          index.stream.Feeds (temporary (pathFor file)) [] fs' ∧
          fs.Alters [temporary (pathFor file)] fs') := by
    refine (OutputStream.succeeds_create hSound hCalm hTemporary).bind ?_
    intro stream created hCreated
    exact Step.ends_of_ok rfl ⟨rfl, hCreated⟩
  refine hCreate.bind ?_
  rintro index created ⟨hName, hFeeds, hCreated⟩
  have hWrite :
      (index.write found.toBytes >>= fun _ =>
          index.flush).Succeeds created
        (fun _ fs' =>
          index.stream.Feeds (temporary (pathFor file))
              found.toBytes fs' ∧
            created.Alters [temporary (pathFor file)] fs') := by
    refine (hFeeds.deliver found.toBytes).bind ?_
    rintro _ written ⟨hWritten, hFirst⟩
    refine Step.Succeeds.mono hWritten.flushBuffer ?_
    rintro _ flushed ⟨hFlushed, hLast⟩
    exact ⟨hFlushed, hFirst.trans hLast⟩
  refine (Step.Succeeds.onFailure hWrite _).bind ?_
  rintro _ written ⟨hWritten, hMore⟩
  have hAlters := hCreated.trans hMore
  have hDirectories := hAlters.directories
  rw [← hName] at hWritten
  have hPublish :=
    succeeds_publish hWritten
      (hName ▸ hDirectories.admits hTarget)
      (hName ▸ hDirectories.apart (apart_temporary hFile))
  refine Step.Succeeds.mono hPublish ?_
  rintro _ published ⟨hHas, hLast, _⟩
  rw [hName] at hHas hLast
  exact ⟨hHas, (hAlters.mono (by simp)).trans hLast⟩

/- An index that stands beside a file is loaded. -/
theorem succeeds_load_of_hasFile
    {file : String}
    {found : FrameIndex}
    (hCalm : fs.Calm)
    (hHas : fs.HasFile (pathFor file) bytes)
    (hParse : FrameIndex.ofBytes bytes = .ok found) :
    (load file).Succeeds fs
      (fun index fs' => index = some found ∧ fs.Counts fs') := by
  rcases hHas with ⟨number, hFile, rfl⟩
  have hOpen :
      ((openIfPresent (pathFor file)).perform fs).1.toOption =
        some (some (.file number)) := by
    unfold openIfPresent
    rw [Step.perform_ofStep,
      FileSystem.openNode_of_isFile hCalm hFile]
    rfl
  exact
    Step.ends_of_ok (perform_load_of_opened hOpen hParse)
      ⟨rfl, fs.counts_counted⟩

/- No index is loaded if none stands beside a file. -/
theorem succeeds_load_of_absent
    {file : String}
    (hCalm : fs.Calm)
    (hIndex : fs.Admits (pathFor file))
    (hLegacy : fs.Admits (legacyPathFor file))
    (hAbsent : Absent file fs) :
    (load file).Succeeds fs
      (fun index fs' => index = none ∧ fs.Counts fs') := by
  have hOpen :
      ∀ {text : String} {fs : FileSystem},
        fs.Calm →
        fs.Admits text →
        fs.nodeAt? text = none →
          (openIfPresent text).perform fs =
            (.ok none, fs.counted) := by
    intro text fs hCalm hAdmits hNone
    unfold openIfPresent
    rw [Step.perform_ofStep,
      FileSystem.openNode_of_absent hCalm hAdmits hNone]
  have hLegacy' :=
    (FileSystem.sameNames_counted fs).sameDirectories.admits hLegacy
  have hNone : fs.counted.nodeAt? (legacyPathFor file) = none := by
    rw [FileSystem.nodeAt?_counted]
    exact hAbsent.legacy
  have hLoad : (load file).perform fs = (.ok none, fs.counted.counted) := by
    unfold load
    rw [Step.perform_bind_of_ok (hOpen hCalm hIndex hAbsent.index),
      Step.perform_bind_of_ok (hOpen (fs.counts_counted.calm hCalm) hLegacy' hNone)]
    rfl
  exact
    Step.ends_of_ok hLoad
      ⟨rfl, fs.counts_counted.trans fs.counted.counts_counted⟩

end IndexFile

end SplitStream
