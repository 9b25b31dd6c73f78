import SplitStream.Proofs.Storage.Calm

/-
  Streams that serve a writer in a sound tree where nothing
  fails: one to a file, and one to the index beside it if
  there is one. They are the channels of the writer, and what
  it writes to them is what the two files come to have.

  Main declarations:
    * `IndexFile.Serving`
    * `IndexFile.Opened`
    * `IndexFile.Opened.createIndex`
    * `IndexFile.Opened.publish`
    * `IndexFile.Serves`
    * `IndexFile.Opened.exists_receivers`
-/

------------------------------------------------------------
-- Streams
------------------------------------------------------------

namespace SplitStream

namespace OutputStream

variable
  {stream : OutputStream} {fs fs' : FileSystem} {text : String}
  {bytes : Bytes}

/- What happens to other names does not matter for a stream. -/
theorem Feeds.altered
    {names : List String}
    (h : stream.Feeds text bytes fs)
    (hAlters : fs.Alters names fs')
    (hAvoids : fs.Avoids text names)
    (hNext : fs.next ≤ fs'.next)
    (hStream :
      fs'.streams.get? stream.number =
        fs.streams.get? stream.number) :
    stream.Feeds text bytes fs' where
  sound := hAlters.sound h.sound
  calm := hAlters.calm h.calm
  used := Nat.lt_of_lt_of_le h.used hNext
  holds := by
    rcases h.holds with ⟨file, hFile, buffer, hState, hBytes⟩
    have hNode := hFile.nodeAt?_eq
    have hSame := hAlters.bytes text file hAvoids hNode
    refine ⟨file, ?_, buffer, ?_, ?_⟩
    · exact
        (hAlters.directories.admits hFile.admits).isFile
          ((hAlters.nodes text hAvoids).trans hNode)
    · rw [hStream, hSame]
      exact hState
    · rw [hSame]
      exact hBytes

/- A count changes nothing of a stream. -/
theorem Feeds.counted
    (h : stream.Feeds text bytes fs) :
    stream.Feeds text bytes fs.counted := by
  rcases h.holds with ⟨file, hFile, buffer, hHolds⟩
  exact
    { sound := FileSystem.sound_counted h.sound
      calm := h.calm
      used := h.used
      holds :=
        ⟨file, (FileSystem.sameNames_counted fs).isFile hFile,
          buffer, hHolds⟩ }

/- To have a file stored does not fail. -/
theorem Feeds.sync
    (h : stream.Feeds text bytes fs) :
    stream.sync.Succeeds fs (fun _ fs' => fs' = fs.counted) :=
  Step.ends_of_ok h.calm.perform_attempt rfl

/-
  A stream is opened to a name of a file. Other streams and
  files are spared.
-/
theorem succeeds_create_beside
    {names : List String}
    (hSound : fs.Sound)
    (hCalm : fs.Calm)
    (hAdmits : fs.Admits text)
    (hText : text ∈ names) :
    (create text).Succeeds fs
      (fun stream fs' =>
        stream.Feeds text [] fs' ∧
        fs.Alters [text] fs' ∧
        fs.Spares names fs' ∧
        ∀ other more bytes,
          fs.Apart other text →
          OutputStream.Feeds more other bytes fs →
            more.number ≠ stream.number ∧
              more.Feeds other bytes fs') := by
  rcases created_of_calm hSound hCalm hAdmits with
    ⟨stream, file, place, fs', hCreate, hPlace, hFile, hCreated⟩
  have hAlters := hCreated.alters hPlace
  have hNext : fs.next ≤ fs'.next :=
    Nat.le_trans hCreated.unused (Nat.le_of_lt hCreated.used)
  apply Step.ends_of_ok hCreate
  refine
    ⟨hCreated.feeds hCalm hPlace hFile, hAlters,
      hCreated.spares hPlace hText, ?_⟩
  intro other more bytes hApart hFeeds
  have hStreams : more.number ≠ stream.number :=
    Nat.ne_of_lt
      (Nat.lt_of_lt_of_le hFeeds.used hCreated.unused)
  refine
    ⟨hStreams,
      hFeeds.altered hAlters ?_ hNext
        (hCreated.streams more.number hStreams)⟩
  intro name hName
  rwa [List.mem_singleton.mp hName]

end OutputStream

------------------------------------------------------------
-- Streams Of A Writer
------------------------------------------------------------

namespace IndexFile

open OutputStream

variable
  {file : String} {data : OutputStream}
  {index : IndexFile} {index? : Option IndexFile}
  {bytes indexed : Bytes} {fs fs' : FileSystem}

/- The names that are written to for a file, and for an index. -/
def serviceNames
    (file : String)
    (captured : Bool) : List String :=
  if captured then
    [file, temporary (pathFor file)]
  else
    [file]

theorem mem_serviceNames
    (file : String)
    (captured : Bool) :
    file ∈ serviceNames file captured := by
  cases captured <;> simp [serviceNames]

/-
  Bytes have been given to the stream for a file and, if it
  has an index, to the one for the index, which has its
  temporary name.
-/
structure Serving
    (file : String)
    (data : OutputStream)
    (index? : Option IndexFile)
    (bytes indexed : Bytes)
    (fs : FileSystem) : Prop where
  feeds : data.Feeds file bytes fs
  index :
    ∀ index ∈ index?,
      index.target = pathFor file ∧
      data.number ≠ index.stream.number ∧
      index.stream.Feeds (temporary (pathFor file)) indexed fs

/- The name of a file is another than that of its index. -/
theorem apart_service
    (hAdmits : fs.Admits file) :
    fs.Apart file (temporary (pathFor file)) := by
  rcases hAdmits with ⟨place, hPlace, hFile, _⟩
  rw [temporary_pathFor]
  exact FileSystem.apart_append hPlace hFile suffix_temporary

theorem Serving.admits
    (h : Serving file data index? bytes indexed fs) :
    fs.Admits file := by
  rcases h.feeds.holds with ⟨_, hFile, _⟩
  exact hFile.admits

/- Neither name of the index is that of the file. -/
theorem avoids_index
    (hAdmits : fs.Admits file) :
    fs.Avoids file
      [temporary (pathFor file), pathFor file] := by
  rcases hAdmits with ⟨place, hPlace, hName, hNode⟩
  intro name hMem
  simp only [List.mem_cons, List.not_mem_nil, or_false] at hMem
  rcases hMem with rfl | rfl
  · exact apart_service ⟨place, hPlace, hName, hNode⟩
  · exact FileSystem.apart_append hPlace hName suffix_index

theorem Serving.counted
    (h : Serving file data index? bytes indexed fs) :
    Serving file data index? bytes indexed fs.counted where
  feeds := h.feeds.counted
  index := by
    intro index hIndex
    rcases h.index index hIndex with
      ⟨hTarget, hStreams, hFeeds⟩
    exact ⟨hTarget, hStreams, hFeeds.counted⟩

/- An index is begun beside a file. -/
theorem Serving.createIndex
    (h : Serving file data none bytes [] fs)
    (hAdmits : fs.Admits (temporary (pathFor file))) :
    (IndexFile.create (pathFor file)).Succeeds fs
      (fun index fs' =>
        Serving file data (some index) bytes [] fs' ∧
        fs.Alters [temporary (pathFor file)] fs' ∧
        fs.Spares (serviceNames file true) fs') := by
  unfold IndexFile.create
  have hText :
      temporary (pathFor file) ∈ serviceNames file true := by
    simp [serviceNames]
  refine
    (succeeds_create_beside h.feeds.sound h.feeds.calm hAdmits
      hText).bind ?_
  rintro stream created ⟨hFeeds, hAlters, hSpares, hOthers⟩
  rcases hOthers file data bytes (apart_service h.admits)
    h.feeds with ⟨hStreams, hData⟩
  refine Step.ends_of_ok rfl ⟨⟨hData, ?_⟩, hAlters, hSpares⟩
  rintro _ ⟨⟩
  exact ⟨rfl, hStreams, hFeeds⟩

/-
  Publishing gives an index its name, and the stream for the
  file is as it was.
-/
theorem Serving.publish
    (h : Serving file data (some index) bytes indexed fs)
    (hAdmits : fs.Admits (pathFor file)) :
    index.publish.Succeeds fs
      (fun _ fs' =>
        data.Feeds file bytes fs' ∧
        fs'.HasFile (pathFor file) indexed ∧
        fs.Alters [temporary (pathFor file), pathFor file]
          fs') := by
  rcases h.index index rfl with ⟨hTarget, hStreams, hFeeds⟩
  rw [← hTarget] at hFeeds
  have hPublish :=
    succeeds_publish hFeeds (hTarget ▸ hAdmits)
      (hTarget ▸ apart_temporary h.admits)
  refine Step.Succeeds.mono hPublish ?_
  rintro _ fs' ⟨hHas, hAlters, hNext, hOthers⟩
  rw [hTarget] at hHas hAlters
  exact
    ⟨h.feeds.altered hAlters (avoids_index h.admits)
        (Nat.le_of_eq hNext.symm) (hOthers data.number hStreams),
      hHas, hAlters⟩

------------------------------------------------------------
-- Opened Streams
------------------------------------------------------------

/- All names that a file takes up while it is written. -/
def takenNames
    (file : String) : List String :=
  [file, temporary (pathFor file), pathFor file]

theorem taken_of_service
    {captured : Bool}
    {name : String}
    (h : name ∈ serviceNames file captured) :
    name ∈ takenNames file := by
  cases captured with
  | false => simp_all [serviceNames, takenNames]
  | true =>
    simp only [serviceNames, if_true] at h
    exact List.mem_append_left [pathFor file] h

/-
  Since some tree, streams have been opened for a file and,
  if one is captured, for its index, and have been given
  bytes. No index can be found, and no other file has been
  altered.
-/
structure Opened
    (file : String)
    (captured : Bool)
    (data : OutputStream)
    (index? : Option IndexFile)
    (bytes indexed : Bytes)
    (start fs : FileSystem) : Prop where
  serving : Serving file data index? bytes indexed fs
  capturing : ∀ index ∈ index?, captured = true
  absent : Absent file fs
  alters : start.Alters (takenNames file) fs
  spares : start.Spares (serviceNames file captured) fs

variable {captured : Bool} {start : FileSystem}

/- Two suffixes of a name stand for different files. -/
theorem avoids_suffix
    (hAdmits : fs.Admits file)
    {suffix other : String}
    (hSuffix : Path.Suffix suffix)
    (hOther : Path.Suffix other)
    (hDiffer : suffix ≠ other) :
    fs.Avoids (file ++ suffix) [file ++ other] := by
  rcases hAdmits with ⟨place, hPlace, hFile, _⟩
  intro name hName
  rw [List.mem_singleton.mp hName]
  exact
    FileSystem.apart_suffixes hPlace hFile hSuffix hOther hDiffer

theorem avoids_file
    (hAdmits : fs.Admits file)
    {suffix : String}
    (hSuffix : Path.Suffix suffix) :
    fs.Avoids (file ++ suffix) [file] := by
  rcases hAdmits with ⟨place, hPlace, hFile, _⟩
  intro name hName
  rw [List.mem_singleton.mp hName]
  exact (FileSystem.apart_append hPlace hFile hSuffix).symm

/- No index can be found if its names are spared. -/
theorem Absent.alters
    {names : List String}
    (h : Absent file fs)
    (hAlters : fs.Alters names fs')
    (hIndex : fs.Avoids (pathFor file) names)
    (hLegacy : fs.Avoids (legacyPathFor file) names) :
    Absent file fs' where
  index := (hAlters.nodes _ hIndex).trans h.index
  legacy := (hAlters.nodes _ hLegacy).trans h.legacy

/- A stream is opened to a file for which no index is found. -/
theorem opened_of_create
    (hSound : fs.Sound)
    (hCalm : fs.Calm)
    (hAdmits : fs.Admits file)
    (hAbsent : Absent file fs)
    (hAlters : start.Alters (takenNames file) fs)
    (hSpares : start.Spares (serviceNames file captured) fs) :
    (OutputStream.create file).Succeeds fs
      (fun data fs' =>
        Opened file captured data none [] [] start fs') := by
  refine
    Step.Succeeds.mono
      (succeeds_create_beside hSound hCalm hAdmits
        (mem_serviceNames file captured)) ?_
  rintro data fs' ⟨hFeeds, hMore, hOthers, _⟩
  exact
    { serving := ⟨hFeeds, by simp⟩
      capturing := by simp
      absent :=
        hAbsent.alters hMore
          (avoids_file hAdmits suffix_index)
          (avoids_file hAdmits suffix_legacy)
      alters :=
        hAlters.trans (hMore.mono (by simp [takenNames]))
      spares := hSpares.trans hOthers }

/- The index of an earlier file is removed. -/
theorem opened_of_remove
    (hFeeds : data.Feeds file [] fs)
    (hIndex : fs.Admits (pathFor file))
    (hLegacy : fs.nodeAt? (legacyPathFor file) = none)
    (hAlters : start.Alters (takenNames file) fs)
    (hSpares : start.Spares (serviceNames file captured) fs) :
    (ContainerFile.removeIfPresent (pathFor file)).Succeeds fs
      (fun _ fs' =>
        Opened file captured data none [] [] start fs') := by
  rcases hFeeds.holds with ⟨_, hFile, _⟩
  refine
    Step.Succeeds.mono
      (ContainerFile.succeeds_removeIfPresent hFeeds.calm hIndex)
      ?_
  rintro _ fs' ⟨hThins, hNone, hMore⟩
  have hAvoids : fs.Avoids file [pathFor file] := by
    intro name hName
    apply avoids_index hFile.admits
    simpa using Or.inr hName
  have hSame :
      fs'.streams.get? data.number =
        fs.streams.get? data.number := by
    rw [hThins.streams]
  exact
    { serving :=
        ⟨hFeeds.altered hMore hAvoids
            (Nat.le_of_eq hThins.next.symm) hSame,
          by simp⟩
      capturing := by simp
      absent := ⟨hNone, hThins.nodeAt?_eq_none hLegacy⟩
      alters :=
        hAlters.trans (hMore.mono (by simp [takenNames]))
      spares := hSpares.trans (hThins.spares _) }

/- An index is begun beside it. -/
theorem Opened.createIndex
    (h : Opened file true data none bytes [] start fs)
    (hAdmits : fs.Admits (temporary (pathFor file))) :
    (IndexFile.create (pathFor file)).Succeeds fs
      (fun index fs' =>
        Opened file true data (some index) bytes [] start
          fs') := by
  have hFile := h.serving.admits
  refine
    Step.Succeeds.mono (h.serving.createIndex hAdmits) ?_
  rintro index fs' ⟨hServing, hAlters, hSpares⟩
  have hTemporary :
      ∀ {suffix},
        Path.Suffix suffix →
        suffix ≠ ".idx.tmp" →
          fs.Avoids (file ++ suffix)
            [temporary (pathFor file)] := by
    intro suffix hSuffix hDiffer
    rw [temporary_pathFor]
    exact avoids_suffix hFile hSuffix suffix_temporary hDiffer
  exact
    { serving := hServing
      capturing := fun _ _ => rfl
      absent :=
        h.absent.alters hAlters
          (hTemporary suffix_index (by decide))
          (hTemporary suffix_legacy (by decide))
      alters :=
        h.alters.trans (hAlters.mono (by simp [takenNames]))
      spares := h.spares.trans hSpares }

theorem Opened.counted
    (h : Opened file captured data index? bytes indexed start fs) :
    Opened file captured data index? bytes indexed start
      fs.counted where
  serving := h.serving.counted
  capturing := h.capturing
  absent := h.absent.sameNames (FileSystem.sameNames_counted fs)
  alters := h.alters.trans (fs.counts_counted.alters _)
  spares := h.spares.trans (fs.counts_counted.fills _).spares

/- A file whose stream is given up has its bytes. -/
theorem Opened.discard
    (h : Opened file captured data index? bytes indexed start fs) :
    (data.discard.final fs).HasFile file bytes ∧
      Absent file (data.discard.final fs) ∧
      start.Alters (takenNames file) (data.discard.final fs) := by
  rcases h.serving.feeds.discard with ⟨hHas, hAlters⟩
  exact
    ⟨hHas, h.absent.discard data,
      h.alters.trans (hAlters.mono (by simp [takenNames]))⟩

/- A published index stands beside the file then. -/
theorem Opened.publish
    (h :
      Opened file captured data (some index) bytes indexed start
        fs)
    (hAdmits : fs.Admits (pathFor file)) :
    index.publish.Succeeds fs
      (fun _ fs' =>
        (data.discard.final fs').HasFile file bytes ∧
        (data.discard.final fs').HasFile (pathFor file)
          indexed ∧
        start.Alters (takenNames file)
          (data.discard.final fs')) := by
  refine Step.Succeeds.mono (h.serving.publish hAdmits) ?_
  rintro _ fs' ⟨hFeeds, hIndex, hAlters⟩
  rcases hFeeds.discard with ⟨hHas, hMore⟩
  have hFile := hAlters.directories.admits h.serving.admits
  exact
    ⟨hHas, hMore.hasFile hIndex (avoids_file hFile suffix_index),
      (h.alters.trans (hAlters.mono (by simp [takenNames]))).trans
        (hMore.mono (by simp [takenNames]))⟩

------------------------------------------------------------
-- Receivers
------------------------------------------------------------

/-
  Receivers have opened streams as channels. Whatever they
  have received, the streams have been given.
-/
structure Serves
    (receivers : Receivers FileSystem)
    (file : String)
    (captured : Bool)
    (data : OutputStream)
    (index? : Option IndexFile)
    (start : FileSystem) : Prop where
  data_eq : receivers.data = data.channel
  index_eq : ∀ index ∈ index?, receivers.index = index.channel
  settled : receivers.Settled
  holds :
    ∀ fs bytes indexed,
      receivers.Holds fs bytes indexed →
        Opened file captured data index? bytes indexed start fs

/- Trees in which only the files of a writer have changed. -/
theorem keeps_fills
    {stream : OutputStream}
    {name : String}
    {names : List String}
    {number : Nat}
    (hCalm : fs.Calm)
    (hFile : fs.IsFile name number)
    (hName : name ∈ names) :
    stream.Keeps number (fs.Fills names) where
  calm := by
    intro fs' hFills step
    rw [hFills.faults]
    exact hCalm step
  touches := by
    intro middle fs' hFills hTouches
    have hMore :=
      FileSystem.fills_of_touches hTouches
        (hFills.sameNames.isFile hFile)
    refine hFills.trans (hMore.mono ?_)
    intro other hOther
    rwa [List.mem_singleton.mp hOther]

/- A stream that still holds bytes in such a tree feeds them. -/
theorem feeds_of_fills
    {stream : OutputStream}
    {name : String}
    {names : List String}
    {number : Nat}
    {more : Bytes}
    (h : stream.Feeds name bytes fs)
    (hFile : fs.IsFile name number)
    (hFills : fs.Fills names fs')
    (hHolds : stream.Holds number more fs') :
    stream.Feeds name more fs' where
  sound := hFills.sameNames.sound h.sound
  calm := by
    intro step
    rw [hFills.faults]
    exact h.calm step
  used := by
    rw [hFills.next]
    exact h.used
  holds := ⟨number, hFills.sameNames.isFile hFile, hHolds⟩

/- Filling the files of the streams changes only their bytes. -/
theorem Opened.filled
    {more moreIndexed : Bytes}
    (h : Opened file captured data index? bytes indexed start fs)
    (hFills : fs.Fills (serviceNames file captured) fs')
    (hServing : Serving file data index? more moreIndexed fs') :
    Opened file captured data index? more moreIndexed start
      fs' where
  serving := hServing
  capturing := h.capturing
  absent := h.absent.sameNames hFills.sameNames
  alters := by
    have hAlters := hFills.alters h.serving.feeds.sound
    exact
      h.alters.trans
        (hAlters.mono fun _ hName => taken_of_service hName)
  spares := h.spares.trans hFills.spares

/- Streams serve a writer as they have been opened. -/
theorem Opened.exists_receivers
    (h : Opened file captured data index? bytes indexed start fs) :
    ∃ receivers,
      Serves receivers file captured data index? start ∧
        receivers.Holds fs bytes indexed := by
  have hFeeds := h.serving.feeds
  rcases hFeeds.holds with ⟨number, hFile, hHolds⟩
  have hData :
      data.Keeps number
        (fs.Fills (serviceNames file captured)) :=
    keeps_fills hFeeds.calm hFile
      (mem_serviceNames file captured)
  cases index? with
  | none =>
    refine ⟨receiverIn _ hData, ?_, .refl _ _, hHolds⟩
    exact
      { data_eq := rfl
        index_eq := by simp
        settled := settled_receiverIn hData
        holds := by
          rintro fs' more _ ⟨hFills, hMore⟩
          have hMore' := feeds_of_fills hFeeds hFile hFills hMore
          exact h.filled hFills ⟨hMore', by simp⟩ }
  | some index =>
    rcases h.serving.index index rfl with
      ⟨hTarget, hStreams, hIndexFeeds⟩
    rcases hIndexFeeds.holds with ⟨indexNumber, hEntry, hStored⟩
    have hIndex :
        index.stream.Keeps indexNumber
          (fs.Fills (serviceNames file captured)) :=
      keeps_fills hFeeds.calm hEntry
        (by simp [serviceNames, h.capturing index rfl])
    have hFiles : number ≠ indexNumber := by
      rintro rfl
      rcases hFile with ⟨own, hOwn, _, hNode⟩
      rcases hEntry with ⟨other, hOther, _, hNode'⟩
      exact
        apart_service h.serving.admits own hOwn other hOther
          (hFeeds.sound.distinct _ _ _ hNode hNode')
    refine
      ⟨receiversIn _ hStreams hFiles hData hIndex, ?_, .refl _ _,
        hHolds, hStored⟩
    exact
      { data_eq := rfl
        index_eq := by
          rintro _ ⟨⟩
          rfl
        settled :=
          settled_receiversIn hStreams hFiles hData hIndex
        holds := by
          rintro fs' more moreIndexed ⟨hFills, hMore, hAll⟩
          have hMore' := feeds_of_fills hFeeds hFile hFills hMore
          have hAll' :=
            feeds_of_fills hIndexFeeds hEntry hFills hAll
          refine h.filled hFills ⟨hMore', ?_⟩
          rintro _ ⟨⟩
          exact ⟨hTarget, hStreams, hAll'⟩ }

end IndexFile

end SplitStream
