import SplitStream.Proofs.Command.Intakes
import SplitStream.Proofs.Command.Streamed

/-
  What compressing stores where nothing fails. All data of an
  intake becomes the blocks of a stream in the output, of
  either framing; its index stands beside it if it was
  captured, and none does otherwise.

  Main declarations:
    * `Streamed.Stored`
    * `Streamed.Written.publish`
    * `ContainerFile.succeeds_create`
    * `ContainerFile.succeeds_close`
    * `CompressRequest.succeeds_writeContainer`
    * `CompressRequest.succeeds_writeRaw`
-/

------------------------------------------------------------
-- Stored Streams
------------------------------------------------------------

namespace SplitStream

open IndexFile

/-
  In a sound tree nothing fails, and a file can be stored and
  found: all names that have to do with it can be those of
  files, and no index has the old one.
-/
structure FileSystem.Hosts
    (file : String)
    (fs : FileSystem) : Prop where
  sound : fs.Sound
  calm : fs.Calm
  admits : fs.Admits file
  index_admits : fs.Admits (pathFor file)
  temporary_admits : fs.Admits (temporary (pathFor file))
  legacy_admits : fs.Admits (legacyPathFor file)
  legacy_none : fs.nodeAt? (legacyPathFor file) = none

theorem FileSystem.Hosts.counts
    {file : String}
    {fs fs' : FileSystem}
    (h : fs.Hosts file)
    (hCounts : fs.Counts fs') :
    fs'.Hosts file := by
  have hSame := hCounts.sameNames
  have hDirectories := hSame.sameDirectories
  exact
    { sound := hSame.sound h.sound
      calm := hCounts.calm h.calm
      admits := hDirectories.admits h.admits
      index_admits := hDirectories.admits h.index_admits
      temporary_admits := hDirectories.admits h.temporary_admits
      legacy_admits := hDirectories.admits h.legacy_admits
      legacy_none :=
        (hCounts.intact.nodeAt?_eq _).trans h.legacy_none }

namespace Streamed

variable
  {kind : Bundled} {raw captured : Bool} {file : String}
  {data : OutputStream} {index : IndexFile}
  {index? : Option IndexFile} {blocks : List Bytes}
  {receivers : Receivers FileSystem} {start fs : FileSystem}

/-
  A stream of some blocks has been given to the streams of a
  file and, if it is captured, of its index.
-/
def Written
    [Engines]
    (kind : Bundled)
    (raw captured : Bool)
    (file : String)
    (data : OutputStream)
    (index? : Option IndexFile)
    (blocks : List Bytes)
    (start fs : FileSystem) : Prop :=
  ∃ bytes index,
    Streamed kind raw bytes blocks index ∧
      Opened file captured data index? bytes
        (if captured then index.toBytes else []) start fs

/-
  A stream of some blocks is stored in a file. An index that
  was captured stands beside it, and otherwise none does.
-/
def Stored
    [Engines]
    (kind : Bundled)
    (raw captured : Bool)
    (file : String)
    (blocks : List Bytes)
    (start fs : FileSystem) : Prop :=
  ∃ bytes index,
    Streamed kind raw bytes blocks index ∧
      fs.HasFile file bytes ∧
      (if captured then
        fs.HasFile (pathFor file) index.toBytes
      else
        Absent file fs) ∧
      start.Alters (takenNames file) fs

/- What has been received has been given to the streams. -/
theorem Received.written
    [Engines]
    (h : Received receivers kind raw captured blocks fs)
    (hServes : Serves receivers file captured data index? start) :
    Written kind raw captured file data index? blocks start fs := by
  rcases h with ⟨bytes, index, hStreamed, hHolds⟩
  exact
    ⟨bytes, index, hStreamed, hServes.holds _ _ _ hHolds⟩

theorem Written.counted
    [Engines]
    (h :
      Written kind raw captured file data index? blocks start
        fs) :
    Written kind raw captured file data index? blocks start
      fs.counted := by
  rcases h with ⟨bytes, index, hStreamed, hOpened⟩
  exact ⟨bytes, index, hStreamed, hOpened.counted⟩

/- Without an index, only the stream of the file is given up. -/
theorem Written.discard
    [Engines]
    (h :
      Written kind raw false file data index? blocks start fs) :
    Stored kind raw false file blocks start
      (data.discard.final fs) := by
  rcases h with ⟨bytes, index, hStreamed, hOpened⟩
  exact ⟨bytes, index, hStreamed, hOpened.discard⟩

/- An index is published before. -/
theorem Written.publish
    [Engines]
    (h :
      Written kind raw true file data (some index) blocks start
        fs)
    (hAdmits : start.Admits (pathFor file)) :
    index.publish.Succeeds fs
      (fun _ fs' =>
        Stored kind raw true file blocks start
          (data.discard.final fs')) := by
  rcases h with ⟨bytes, found, hStreamed, hOpened⟩
  have hAdmits' := hOpened.alters.directories.admits hAdmits
  refine Step.Succeeds.mono (hOpened.publish hAdmits') ?_
  rintro _ fs' hStored
  exact ⟨bytes, found, hStreamed, hStored⟩

/- A count before or after makes no difference. -/
theorem Stored.since
    [Engines]
    {before : FileSystem}
    (h : Stored kind raw captured file blocks start fs)
    (hCounts : before.Counts start) :
    Stored kind raw captured file blocks before fs := by
  rcases h with ⟨bytes, index, hStreamed, hHas, hIndex, hAlters⟩
  exact
    ⟨bytes, index, hStreamed, hHas, hIndex,
      (hCounts.alters _).trans hAlters⟩

theorem Stored.counts
    [Engines]
    {after : FileSystem}
    (h : Stored kind raw captured file blocks start fs)
    (hCounts : fs.Counts after) :
    Stored kind raw captured file blocks start after := by
  rcases h with ⟨bytes, index, hStreamed, hHas, hIndex, hAlters⟩
  refine
    ⟨bytes, index, hStreamed, hCounts.hasFile hHas, ?_,
      hAlters.trans (hCounts.alters _)⟩
  cases captured with
  | false => exact hIndex.sameNames hCounts.sameNames
  | true => exact hCounts.hasFile hIndex

end Streamed

------------------------------------------------------------
-- Container Files
------------------------------------------------------------

namespace ContainerFile

variable
  {path : String} {codec : Codec} {options : WriterOptions}
  {clock : UInt32} {start fs : FileSystem}
  {container : ContainerFile}

/-
  A container that has been created takes bytes. Its streams
  have been opened since some tree, and so has that of an
  index if one is to be captured.
-/
def Takes
    (path : String)
    (codec : Codec)
    (options : WriterOptions)
    (clock : UInt32)
    (container : ContainerFile)
    (start fs : FileSystem) : Prop :=
  ∃ receivers bytes,
    Serves receivers path options.index container.stream
        container.index start ∧
      Opened path options.index container.stream
        container.index bytes [] start fs ∧
      ContainerWriter.Taking receivers codec
        (ContainerWriter.headerOf codec options clock)
        options.blockSize options.index (container.writer, fs)
        [] ∧
      container.writer.regrouper.held.size = 0 ∧
      container.index.isSome = options.index

/- A container is created, whatever index there was before. -/
theorem succeeds_create
    (hHosts : start.Hosts path)
    (hSize :
      0 < options.blockSize ∧
        options.blockSize ≤ maxBlockSize)
    (hCodec : codec.NeverFails options.blockSize) :
    (create path codec options clock).Succeeds start
      (fun container fs =>
        container.Takes path codec options clock start fs) := by
  unfold create
  refine
    (succeeds_removeIfPresent hHosts.calm
      hHosts.index_admits).bind ?_
  rintro _ removed ⟨hThins, hNone, hRemoved⟩
  have hAbsent : Absent path removed :=
    ⟨hNone, hThins.nodeAt?_eq_none hHosts.legacy_none⟩
  have hCreate :=
    opened_of_create
      (hRemoved.sound hHosts.sound) (hRemoved.calm hHosts.calm)
      (hRemoved.directories.admits hHosts.admits) hAbsent
      (hRemoved.mono (by simp [takenNames]))
      (hThins.spares (serviceNames path options.index))
  refine hCreate.bind ?_
  intro data opened hOpened
  refine Step.Succeeds.onFailure ?_ _
  rcases hOpened.exists_receivers with
    ⟨receivers, hServes, hHolds⟩
  rcases ContainerWriter.taking_new clock hHolds hSize hCodec with
    ⟨writer, begun, hNew, hTaking, hHeld⟩
  rw [hServes.data_eq] at hNew
  rcases hTaking.transfer with ⟨bytes, hReceived, hTransfer⟩
  have hBegun := hServes.holds _ _ _ hReceived
  refine (Step.succeeds_of_ok hNew).bind ?_
  rintro writer begun ⟨rfl, rfl⟩
  cases hIndex : options.index with
  | false =>
    rw [← hIndex] at hTaking
    exact
      Step.ends_of_ok rfl
        ⟨receivers, bytes, hServes, hBegun, hTaking, hHeld,
          hIndex.symm⟩
  | true =>
    rw [hIndex] at hBegun
    have hTemporary :=
      hBegun.alters.directories.admits hHosts.temporary_admits
    refine (hBegun.createIndex hTemporary).bind ?_
    intro index beside hBeside
    rcases hBeside.exists_receivers with
      ⟨both, hBoth, hHoldsBoth⟩
    have hSame : receivers.data = both.data :=
      hServes.data_eq.trans hBoth.data_eq.symm
    rcases (hTransfer both beside hSame hHoldsBoth).attach with
      ⟨attached, hAttach, hAttached, hKept⟩
    rw [hBoth.index_eq index rfl] at hAttach
    rw [← hIndex] at hBoth hBeside hAttached
    have hTakes :
        Takes path codec options clock
          ⟨attached, data, some index⟩ start beside :=
      ⟨both, bytes, hBoth, hBeside, hAttached, hKept ▸ hHeld,
        hIndex.symm⟩
    refine Step.ends_of_ok ?_ hTakes
    rw [hAttach]
    rfl

/- A container that has everything is closed. -/
theorem succeeds_close
    [engines : Engines]
    (hEngines : engines.Sound)
    {kind : Bundled}
    {level : Option Int}
    {captured : Bool}
    {receivers : Receivers FileSystem}
    {writer : ContainerWriter FileSystem}
    {data : OutputStream}
    {index? : Option IndexFile}
    {blocks : List Bytes}
    (hServes : Serves receivers path captured data index? start)
    (hIndexed : index?.isSome = captured)
    (hEnded :
      ContainerWriter.Ended receivers (kind.codec level)
        (ContainerWriter.headerOf (kind.codec level) options
          clock)
        captured (writer, fs) blocks)
    (hAdmits : start.Admits (pathFor path)) :
    (close ⟨writer, data, index?⟩).Succeeds fs
      (fun _ fs' =>
        Streamed.Stored kind false captured path blocks start
          fs') := by
  have hComplete :
      (complete ⟨writer, data, index?⟩).Succeeds fs
        (fun _ fs' =>
          Streamed.Written kind false captured path data index?
            blocks start fs') := by
    rcases hEnded.close hServes.settled with
      ⟨segments, next, hClose, hReceived⟩
    have hWritten :=
      (hReceived.streamed hEngines).written hServes
    refine
      (Step.succeeds_of_ok
        (FrameWriter.perform_withWriter hClose)).bind ?_
    rintro _ closed ⟨_, rfl⟩
    rcases hWritten with ⟨_, _, _, hOpened⟩
    refine Step.Succeeds.mono hOpened.serving.feeds.sync ?_
    rintro _ synced rfl
    exact
      ((hReceived.streamed hEngines).written hServes).counted
  unfold close
  refine (Step.Succeeds.onFailure hComplete _).bind ?_
  intro _ stored hWritten
  cases index? with
  | none =>
    subst hIndexed
    exact Step.ends_of_ok rfl hWritten.discard
  | some index =>
    subst hIndexed
    have hPublish :
        Step.Succeeds (index.publish >>= fun _ => pure ())
          stored
          (fun (_ : Unit) fs' =>
            Streamed.Stored kind false true path blocks start
              (data.discard.final fs')) :=
      (hWritten.publish hAdmits).bind
        fun _ _ hStored => Step.ends_of_ok rfl hStored
    exact hPublish.ensuring fun _ _ hStored => hStored

end ContainerFile

------------------------------------------------------------
-- Requests
------------------------------------------------------------

namespace CompressRequest

variable
  {request : CompressRequest} {intake : Intake} {data : Bytes}
  {session : Session}

/-
  What a request leaves of some data: the stream of its blocks
  is stored in the output.
-/
def Stores
    [Engines]
    (request : CompressRequest)
    (data : Bytes)
    (start fs : FileSystem) : Prop :=
  ∃ blocks,
    Streamed.Stored request.codec request.raw request.index
        request.output blocks start fs ∧
      Bytes.DividedInto request.blockSize data blocks

/- The container of a request is created. -/
theorem succeeds_createContainer
    [engines : Engines]
    (hEngines : engines.Roomy)
    {start : FileSystem}
    (hHosts : start.Hosts request.output)
    (hSize :
      0 < request.blockSize ∧ request.blockSize ≤ maxBlockSize)
    (clock : UInt32) :
    (ContainerFile.create request.output
        (request.codec.codec request.level) request.options
        clock).Succeeds start
      (fun container fs =>
        container.Takes request.output
          (request.codec.codec request.level) request.options
          clock start fs) :=
  ContainerFile.succeeds_create hHosts hSize
    (Bundled.neverFails hEngines _ _ hSize.2)

/-
  A container that has been created takes all data, and is
  closed.
-/
theorem succeeds_fill
    [engines : Engines]
    (hEngines : engines.Sound)
    {names : List String}
    {container : ContainerFile}
    {clock : UInt32}
    {start : FileSystem}
    (hRaw : request.raw = false)
    (hAdmits : start.Admits (pathFor request.output))
    (hTakes :
      container.Takes request.output
        (request.codec.codec request.level) request.options clock
        start session.files)
    (hBrings : intake.Brings names data session) :
    (Step.onFailure (Command.cleaning container.discard)
          (intake.copyTo container.writer) >>=
        fun copied =>
          Command.library
              (ContainerFile.close
                { container with writer := copied.2 }) >>=
            fun _ => pure copied.1).Succeeds session
      (fun _ after => request.Stores data start after.files) := by
  rcases hTakes with
    ⟨receivers, bytes, hServes, hOpened, hTaking, hHeld,
      hIndexed⟩
  have hCopy :=
    hBrings.succeeds_copyTo
      (ContainerWriter.fulfils hServes.settled) hTaking hHeld
  refine (Step.Succeeds.onFailure hCopy _).bind ?_
  rintro ⟨tally, writer⟩ copied ⟨blocks, hEnded, hDivided⟩
  have hClose :=
    ContainerFile.succeeds_close hEngines hServes hIndexed
      hEnded hAdmits
  refine (Command.succeeds_onFiles hClose .library).bind ?_
  rintro _ closed ⟨_, hStored⟩
  refine Step.ends_of_ok rfl ⟨blocks, ?_, hDivided⟩
  rw [hRaw]
  exact hStored

/- Data is stored as a container. -/
theorem succeeds_writeContainer
    [engines : Engines]
    (hEngines : engines.Sound)
    (hHosts : session.files.Hosts request.output)
    (hSize :
      0 < request.blockSize ∧ request.blockSize ≤ maxBlockSize)
    (hRaw : request.raw = false)
    (hBrings :
      intake.Brings (serviceNames request.output request.index)
        data session) :
    (request.writeContainer intake).Succeeds session
      (fun _ after =>
        request.Stores data session.files after.files) := by
  refine (Step.ends_get session).bind ?_
  rintro _ session ⟨rfl, rfl⟩
  refine
    (Command.succeeds_during
      (Command.succeeds_onFiles
        (succeeds_createContainer hEngines.toRoomy hHosts hSize
          session.clock)
        .library) _).bind ?_
  rintro container created ⟨hCreated, hTakes⟩
  have ⟨_, _, _, hOpened, _⟩ := hTakes
  have hBrings' :=
    hBrings.spares hOpened.spares (Session.input_eq hCreated)
  exact
    succeeds_fill hEngines hRaw hHosts.index_admits hTakes
      hBrings'

/- An index is captured beside a raw stream. -/
theorem succeeds_copyWithIndex
    [engines : Engines]
    (hEngines : engines.Sound)
    {stream : OutputStream}
    {writer : RawWriter FileSystem}
    {start : Session}
    (hHosts : start.files.Hosts request.output)
    (hSize :
      0 < request.blockSize ∧ request.blockSize ≤ maxBlockSize)
    (hBrings :
      intake.Brings (serviceNames request.output true) data
        start)
    (hInput : session.input = start.input)
    (hOpened :
      Opened request.output true stream none [] [] start.files
        session.files)
    (hNew :
      RawWriter.new stream.channel
          (request.codec.codec request.level)
          request.blockSize =
        .ok writer) :
    (request.copyWithIndex intake stream writer).Succeeds session
      (fun _ after =>
        ∃ blocks,
          Streamed.Stored request.codec true true request.output
              blocks start.files
              (stream.discard.final after.files) ∧
            Bytes.DividedInto request.blockSize data blocks) := by
  have hTemporary :=
    hOpened.alters.directories.admits hHosts.temporary_admits
  refine
    (Command.succeeds_onFiles (hOpened.createIndex hTemporary)
      .library).bind ?_
  rintro index created ⟨hCreated, hBeside⟩
  have hInput' := (Session.input_eq hCreated).trans hInput
  rcases hBeside.exists_receivers with
    ⟨receivers, hServes, hHolds⟩
  rw [← hServes.data_eq] at hNew
  rcases RawWriter.taking_new hHolds hNew
    (Bundled.neverFails hEngines.toRoomy _ _ hSize.2) with
    ⟨hTaking, hHeld⟩
  rcases hTaking.attach with
    ⟨attached, hAttach, hAttached, hKept⟩
  rw [hServes.index_eq index rfl] at hAttach
  refine
    (Step.Succeeds.onFailure
      (show Step.Succeeds _ created
          (fun _ after =>
            ∃ blocks,
              Streamed.Written request.codec true true
                  request.output stream (some index) blocks
                  start.files after.files ∧
                Bytes.DividedInto request.blockSize data blocks)
        from ?_) _).bind ?_
  · have hExcept :
        (ofExcept (writer.attach index.channel) :
            Action FileSystem (RawWriter FileSystem)).perform
            created.files =
          (.ok attached, created.files) := by
      rw [Step.perform_ofExcept, hAttach]
    refine
      (Command.succeeds_onFiles (Step.succeeds_of_ok hExcept)
        .library).bind ?_
    rintro attached ready ⟨hReady, rfl, hFiles⟩
    rw [← hFiles] at hAttached hBeside
    have hBrings' :=
      hBrings.spares hBeside.spares
        ((Session.input_eq hReady).trans hInput')
    refine
      (hBrings'.succeeds_copyToRaw hServes.settled hAttached
        (hKept ▸ hHeld)).bind ?_
    rintro tally copied
      ⟨blocks, contents, hReceived, hDivided⟩
    have hWritten :=
      (hReceived.streamed hEngines hSize.2).written hServes
    have ⟨_, _, _, hCopied⟩ := hWritten
    refine
      (Command.succeeds_onFiles hCopied.serving.feeds.sync
        .device).bind ?_
    rintro _ synced ⟨_, hSynced⟩
    refine Step.ends_of_ok rfl ⟨blocks, ?_, hDivided⟩
    rw [hSynced]
    exact hWritten.counted
  · rintro tally copied ⟨blocks, hWritten, hDivided⟩
    refine
      (Command.succeeds_onFiles
        (hWritten.publish hHosts.index_admits) .library).bind ?_
    rintro _ published ⟨_, hStored⟩
    exact Step.ends_of_ok rfl ⟨blocks, hStored, hDivided⟩

/- Everything is copied to a raw stream, maybe with an index. -/
theorem succeeds_copy
    [engines : Engines]
    (hEngines : engines.Sound)
    {stream : OutputStream}
    {writer : RawWriter FileSystem}
    {start : Session}
    (hHosts : start.files.Hosts request.output)
    (hSize :
      0 < request.blockSize ∧ request.blockSize ≤ maxBlockSize)
    (hRaw : request.raw = true)
    (hBrings :
      intake.Brings (serviceNames request.output request.index)
        data start)
    (hInput : session.input = start.input)
    (hOpened :
      Opened request.output request.index stream none [] []
        start.files session.files)
    (hNew :
      RawWriter.new stream.channel
          (request.codec.codec request.level)
          request.blockSize =
        .ok writer) :
    (if request.index then
        request.copyWithIndex intake stream writer
      else
        intake.copyToRaw writer).Succeeds session
      (fun _ after =>
        request.Stores data start.files
          (stream.discard.final after.files)) := by
  by_cases hIndex : request.index = true
  · rw [if_pos hIndex]
    rw [hIndex] at hBrings hOpened
    refine
      Step.Succeeds.mono
        (succeeds_copyWithIndex hEngines hHosts hSize hBrings
          hInput hOpened hNew) ?_
    rintro _ after ⟨blocks, hStored, hDivided⟩
    refine ⟨blocks, ?_, hDivided⟩
    rw [hRaw, hIndex]
    exact hStored
  · rw [if_neg hIndex]
    have hBrings' := hBrings.spares hOpened.spares hInput
    rcases hOpened.exists_receivers with
      ⟨receivers, hServes, hHolds⟩
    rw [← hServes.data_eq] at hNew
    rcases RawWriter.taking_new hHolds hNew
      (Bundled.neverFails hEngines.toRoomy _ _ hSize.2) with
      ⟨hTaking, hHeld⟩
    refine
      Step.Succeeds.mono
        (hBrings'.succeeds_copyToRaw hServes.settled hTaking
          hHeld) ?_
    rintro _ after ⟨blocks, contents, hReceived, hDivided⟩
    have hNone := eq_false_of_ne_true hIndex
    rw [hNone] at hServes
    refine ⟨blocks, ?_, hDivided⟩
    rw [hRaw, hNone]
    have hStreamed := hReceived.streamed hEngines hSize.2
    exact (hStreamed.written hServes).discard

/- Data is stored as a raw stream. -/
theorem succeeds_writeRaw
    [engines : Engines]
    (hEngines : engines.Sound)
    (hHosts : session.files.Hosts request.output)
    (hSize :
      0 < request.blockSize ∧ request.blockSize ≤ maxBlockSize)
    (hRaw : request.raw = true)
    (hBrings :
      intake.Brings (serviceNames request.output request.index)
        data session) :
    (request.writeRaw intake).Succeeds session
      (fun _ after =>
        request.Stores data session.files after.files) := by
  have hCreate :=
    OutputStream.succeeds_create_beside hHosts.sound hHosts.calm
      hHosts.admits
      (mem_serviceNames request.output request.index)
  refine
    (Command.succeeds_during
      (Command.succeeds_onFiles hCreate .device) _).bind ?_
  rintro stream created ⟨hCreated, hFeeds, hAlters, hSpares, _⟩
  have hLegacy :
      created.files.nodeAt? (legacyPathFor request.output) =
        none :=
    (hAlters.nodes _
      (avoids_file hHosts.admits suffix_legacy)).trans
      hHosts.legacy_none
  refine
    Step.Succeeds.ensuring
      (show Step.Succeeds _ created
          (fun _ after =>
            request.Stores data session.files
              (stream.discard.final after.files))
        from ?_)
      fun _ _ hStores => hStores
  rcases RawWriter.exists_new stream.channel
    (request.codec.codec request.level) hSize with
    ⟨writer, hNew⟩
  have hExcept :
      (ofExcept
          (RawWriter.new stream.channel
            (request.codec.codec request.level)
            request.blockSize) :
          Action FileSystem (RawWriter FileSystem)).perform
          created.files =
        (.ok writer, created.files) := by
    rw [Step.perform_ofExcept, hNew]
  refine
    (Command.succeeds_onFiles (Step.succeeds_of_ok hExcept)
      .library).bind ?_
  rintro writer begun ⟨hBegun, rfl, hFiles⟩
  rw [← hFiles] at hFeeds hAlters hSpares hLegacy
  have hRemove :=
    opened_of_remove hFeeds
      (hAlters.directories.admits hHosts.index_admits) hLegacy
      (hAlters.mono (by simp [takenNames])) hSpares
  refine
    (Command.succeeds_during
      (Command.succeeds_onFiles hRemove .device) _).bind ?_
  rintro _ cleared ⟨hCleared, hOpened⟩
  have hInput : cleared.input = session.input :=
    ((Session.input_eq hCleared).trans
      (Session.input_eq hBegun)).trans
      (Session.input_eq hCreated)
  exact
    succeeds_copy hEngines hHosts hSize hRaw hBrings hInput
      hOpened hNew

/- What has been stored is measured, and told about. -/
theorem succeeds_report
    [Engines]
    {start : FileSystem}
    (hHosts : start.Hosts request.output)
    (tally : Tally)
    (written : Session)
    (hStores : request.Stores data start written.files) :
    (Command.device (FileSystem.fileSize request.output) >>=
        fun packed =>
          Command.noteAll
            (request.summary tally packed)).Succeeds written
      (fun _ after => request.Stores data start after.files) := by
  rcases hStores with ⟨blocks, hStored, hDivided⟩
  have ⟨_, _, _, hHas, _, hAlters⟩ := hStored
  refine
    (Command.succeeds_onFiles
      (FileSystem.succeeds_fileSize (hAlters.calm hHosts.calm)
        hHas) .device).bind ?_
  rintro packed measured ⟨_, _, hMeasured⟩
  refine Step.Succeeds.mono (Command.succeeds_noteAll _ _) ?_
  rintro _ after ⟨hFiles, _⟩
  rw [hFiles, hMeasured]
  exact
    ⟨blocks, hStored.counts written.files.counts_counted,
      hDivided⟩

/- Data that is supplied is stored by a compression. -/
theorem succeeds_run
    [engines : Engines]
    (hEngines : engines.Sound)
    (hHosts : session.files.Hosts request.output)
    (hSize :
      0 < request.blockSize ∧ request.blockSize ≤ maxBlockSize)
    (hSupplies :
      session.Supplies request.input
        (serviceNames request.output request.index) data) :
    request.run.Succeeds session
      (fun _ after =>
        request.Stores data session.files after.files) := by
  refine
    (Intake.succeeds_fromPath hHosts.sound hHosts.calm
      hSupplies).bind ?_
  rintro intake opened ⟨hBrings, hCounts⟩
  have hHosts' := hHosts.counts hCounts.files
  have hReport :
      ∀ tally (written : Session),
        request.Stores data opened.files written.files →
          (Command.device (FileSystem.fileSize request.output) >>=
            fun packed =>
              Command.noteAll
                (request.summary tally packed)).Succeeds written
            (fun _ after =>
              request.Stores data session.files after.files) := by
    intro tally written hStores
    refine
      Step.Succeeds.mono
        (succeeds_report hHosts' tally written hStores) ?_
    rintro _ _ ⟨blocks, hStored, hDivided⟩
    exact ⟨blocks, hStored.since hCounts.files, hDivided⟩
  by_cases hRaw : request.raw = true
  · rw [if_pos hRaw]
    exact
      (succeeds_writeRaw hEngines hHosts' hSize hRaw
        hBrings).bind hReport
  · rw [if_neg hRaw]
    exact
      (succeeds_writeContainer hEngines hHosts' hSize
        (eq_false_of_ne_true hRaw) hBrings).bind hReport

end CompressRequest

end SplitStream
