import SplitStream.Proofs.Codec.Bundled
import SplitStream.Proofs.Command.Copying

/-
  What compressing a file leaves beside it. The index of an
  earlier file is removed before it can do harm, with one
  exception: a raw stream is opened, which empties the file,
  before its block size is looked at and before the index is
  removed.

  Main declarations:
    * `CompressRequest.ends_copyWithIndex`
    * `CompressRequest.ends_copy`
    * `CompressRequest.MissesIndex`
    * `CompressRequest.ends_writeRaw`
    * `CompressRequest.ends_writeContainer`
    * `CompressRequest.ends_run`
-/

------------------------------------------------------------
-- Raw Streams
------------------------------------------------------------

namespace SplitStream

open IndexFile OutputStream

namespace CompressRequest

variable {request : CompressRequest} {session : Session}

/-
  A raw stream is written with its index beside it. The
  stream is given up in the end.
-/
theorem ends_copyWithIndex
    [engines : Engines]
    (hEngines : engines.Measured)
    {data : OutputStream}
    {number : Nat}
    {writer : RawWriter FileSystem}
    (intake : Intake)
    (hBegun : Begun request.output data number session.files)
    (hHolds : data.Holds number [] session.files)
    (hAbsent : Absent request.output session.files)
    (hNew :
      RawWriter.new data.channel
          (request.codec.codec request.level)
          request.blockSize =
        .ok writer) :
    (request.copyWithIndex intake data writer).Ends session
      (fun _ after =>
        Tidy request.output (data.discard.final after.files))
      (fun _ after =>
        Absent request.output
          (data.discard.final after.files)) := by
  have hCreate :=
    hBegun.createIndex.mono
      (fun _ _ hDone => hDone)
      (fun _ fs hCounted =>
        (hCounted ▸
          hAbsent.sameNames
            (FileSystem.sameNames_counted session.files) :
          Absent request.output fs).discard data)
  refine (Command.ends_onFiles hCreate).bind ?_
  rintro index start
    ⟨indexNumber, hPaired, hNames, hKept, hEmpty⟩
  have hBeside :
      Accompanied request.output data index number indexNumber
        start.files :=
    hPaired.accompanied
      { index :=
          (hNames _ suffix_index (by decide)).trans hAbsent.index
        legacy :=
          (hNames _ suffix_legacy (by decide)).trans
            hAbsent.legacy }
  let both := receivers hBeside.streams hBeside.files
  have hReceived : both.Holds start.files.calm [] [] :=
    ⟨start.files.calm_calm, hKept [] hHolds, hEmpty⟩
  have hKeeps := RawWriter.keeps_new hReceived hNew
  refine
    (Step.Ends.onFailure
      (show Step.Ends _ start
          (fun _ after =>
            Accompanied request.output data index number
                indexNumber after.files ∧
              Ready data index number indexNumber after.files)
          (fun _ after => Absent request.output after.files)
        from ?_)
      (fun _ after hAbsent' =>
        (absent_discard index hAbsent').discard data)).bind ?_
  · have hAttach :=
      (Step.ends_ofExcept (writer.attach index.channel)
        start.files).fails
        (fun _ fs hError =>
          (hError.2 ▸ hBeside.absent : Absent request.output fs))
    refine (Command.ends_onFiles hAttach).bind ?_
    rintro attached begun ⟨hAttached, hFiles⟩
    have hKeeps' := hKeeps.attach hAttached
    have hFits :
        attached.Fits (Calmer start.files)
          start.files.SameNames :=
      hKeeps'.fits (inStep_channel data)
        fun _ => inStep_channel index.stream
    have hSame : start.files.SameNames begun.files := by
      rw [hFiles]
      exact .refl start.files
    refine
      ((intake.ends_copyToRaw hFits hSame).fails
        fun _ _ hSame' => hBeside.absent.sameNames hSame').bind ?_
    rintro tally copied
      ⟨hSame', finished, closed, middle, hCopied, hClose⟩
    rw [hFiles] at hCopied
    have hReady :=
      RawWriter.ready_of_close hBeside.streams hBeside.files
        hKeeps'
        (Bundled.room_lt hEngines _ _ hKeeps'.blockSize_le)
        hCopied hClose
    have hCounted :=
      hSame'.trans (FileSystem.sameNames_counted copied.files)
    have hSync :=
      (data.ends_sync copied.files).mono
        (fun _ fs hSynced =>
          (hSynced ▸ ⟨hBeside.sameNames hCounted, hReady.counted⟩ :
            Accompanied request.output data index number
                indexNumber fs ∧
              Ready data index number indexNumber fs))
        (fun _ fs hSynced =>
          (hSynced ▸ hBeside.absent.sameNames hCounted :
            Absent request.output fs))
    refine (Command.ends_onFiles hSync).bind ?_
    intro _ last hDone
    exact Step.ends_of_ok rfl hDone
  · rintro tally after
      ⟨hBeside', bytes, stored, found, hData, hIndex, hScan,
        hStored⟩
    have hPublish := hBeside'.publish hData hIndex hScan hStored
    refine (Command.ends_onFiles hPublish).bind ?_
    intro _ last hPresent
    exact Step.ends_of_ok rfl (.inr hPresent)

/-
  Everything is copied to a raw stream, with an index or
  without one, and the stream is given up in the end.
-/
theorem ends_copy
    [engines : Engines]
    (hEngines : engines.Measured)
    {data : OutputStream}
    {number : Nat}
    {writer : RawWriter FileSystem}
    (intake : Intake)
    (hBegun : Begun request.output data number session.files)
    (hHolds : data.Holds number [] session.files)
    (hAbsent : Absent request.output session.files)
    (hNew :
      RawWriter.new data.channel
          (request.codec.codec request.level)
          request.blockSize =
        .ok writer) :
    (if request.index then
        request.copyWithIndex intake data writer
      else
        intake.copyToRaw writer).Ends session
      (fun _ after =>
        Tidy request.output (data.discard.final after.files))
      (fun _ after =>
        Tidy request.output
          (data.discard.final after.files)) := by
  by_cases hIndexed : request.index = true
  · rw [if_pos hIndexed]
    exact
      (request.ends_copyWithIndex hEngines intake hBegun hHolds
        hAbsent hNew).fails
        fun _ _ hAbsent' => .inl hAbsent'
  · rw [if_neg hIndexed]
    have hReceived :
        (data.receiver number).Holds session.files.calm [] [] :=
      ⟨session.files.calm_calm, hHolds⟩
    have hKeeps := RawWriter.keeps_new hReceived hNew
    have hFits :
        writer.Fits (Calmer session.files)
          session.files.SameNames :=
      hKeeps.fits (inStep_channel data) (by simp)
    have hTidy :
        ∀ fs,
          session.files.SameNames fs →
            Tidy request.output (data.discard.final fs) := by
      intro fs hNames
      left
      exact (hAbsent.sameNames hNames).discard data
    exact
      (intake.ends_copyToRaw hFits (.refl session.files)).mono
        (fun _ after hDone => hTidy after.files hDone.1)
        (fun _ after hNames => hTidy after.files hNames)

/-
  The index of an earlier file is in the way, and it is not
  reached or cannot be removed.
-/
def MissesIndex
    (request : CompressRequest)
    (fs : FileSystem)
    (failure : Failure) : Prop :=
  fs.nodeAt? request.indexPath ≠ none ∧
    (¬ (0 < request.blockSize ∧
        request.blockSize ≤ maxBlockSize) ∨
      ∃ cause,
        failure = .during (.removingIndex request.indexPath) cause)

/- Only a block size can keep a raw writer from being made. -/
theorem not_size_of_new
    {ω : Type}
    {channel : Channel ω}
    {codec : Codec}
    {blockSize : Nat}
    {e : Error}
    (hNew : RawWriter.new channel codec blockSize = .error e) :
    ¬ (0 < blockSize ∧ blockSize ≤ maxBlockSize) := by
  intro hSize
  simp [RawWriter.new, Regrouper.new, hSize, bind, Except.bind,
    pure, Except.pure] at hNew

/- What a raw stream leaves, once its file has been opened. -/
theorem ends_writeRaw
    [engines : Engines]
    (hEngines : engines.Measured)
    (hSound : session.files.Sound)
    (hFaults :
      ∀ step, session.files.faults step ≠ some .notFound)
    (hLegacy :
      session.files.nodeAt? (legacyPathFor request.output) =
        none)
    (intake : Intake) :
    (request.writeRaw intake).Ends session
      (fun _ after => Tidy request.output after.files)
      (fun failure after =>
        Tidy request.output after.files ∨
          session.files.Intact after.files ∨
          request.MissesIndex session.files failure) := by
  have hCreate :=
    (ends_create hSound request.output).fails
      (fun _ fs hCounted =>
        (hCounted ▸ FileSystem.intact_counted session.files :
          session.files.Intact fs))
  refine
    (Command.ends_during (Command.ends_onFiles hCreate)
      fun _ _ hIntact => .inr (.inl hIntact)).bind ?_
  rintro data opened ⟨number, hBegun, hHolds, hSame, hKept⟩
  have hLegacy' := (hKept _ suffix_legacy).trans hLegacy
  refine
    (show Step.Ends _ opened
        (fun _ after =>
          Tidy request.output (data.discard.final after.files))
        (fun failure after =>
          Tidy request.output
              (data.discard.final after.files) ∨
            request.MissesIndex session.files failure)
      from ?_).ensuring
      (fun _ _ hTidy => hTidy)
      (fun _ _ hFails => hFails.imp_right .inr)
  have hMissed :
      ∀ failure fs,
        opened.files.SameNames fs →
        ¬ (0 < request.blockSize ∧
              request.blockSize ≤ maxBlockSize) ∨
            (∃ cause,
              failure =
                .during (.removingIndex request.indexPath)
                  cause) →
          Tidy request.output (data.discard.final fs) ∨
            request.MissesIndex session.files failure := by
    intro failure fs hNames hReason
    by_cases hNone :
        session.files.nodeAt? request.indexPath = none
    · left
      left
      have hAbsent : Absent request.output opened.files :=
        ⟨(hKept _ suffix_index).trans hNone, hLegacy'⟩
      exact (hAbsent.sameNames hNames).discard data
    · right
      exact ⟨hNone, hReason⟩
  have hNew :=
    (Step.ends_ofExcept
      (RawWriter.new data.channel
        (request.codec.codec request.level) request.blockSize)
      opened.files).fails
      (fun _ fs hError =>
        (⟨not_size_of_new hError.1, hError.2⟩ :
          ¬ (0 < request.blockSize ∧
              request.blockSize ≤ maxBlockSize) ∧
            fs = opened.files))
  refine
    ((Command.ends_onFiles hNew).fails
      fun failure after hError =>
        hMissed failure after.files (hError.2 ▸ .refl _)
          (.inl hError.1)).bind ?_
  rintro writer begun ⟨hNew, hFiles⟩
  rw [← hFiles] at hBegun hHolds hSame hMissed hLegacy'
  have hRemove :=
    hBegun.removeIfPresent hHolds hLegacy' (hSame ▸ hFaults _)
  refine
    (Command.ends_during (Command.ends_onFiles hRemove)
      fun cause after hCounted =>
        hMissed _ after.files
          (hCounted ▸ FileSystem.sameNames_counted begun.files)
          (.inr ⟨cause, rfl⟩)).bind ?_
  rintro _ cleared ⟨hBegun', hHolds', hAbsent⟩
  exact
    (request.ends_copy hEngines intake hBegun' hHolds' hAbsent
      hNew).fails
      fun _ _ hTidy => .inl hTidy

------------------------------------------------------------
-- Containers
------------------------------------------------------------

/- What a container leaves. -/
theorem ends_writeContainer
    [Engines]
    (hSound : session.files.Sound)
    (hFaults :
      ∀ step, session.files.faults step ≠ some .notFound)
    (hLegacy :
      session.files.nodeAt? (legacyPathFor request.output) =
        none)
    (intake : Intake) :
    (request.writeContainer intake).Ends session
      (fun _ after => Tidy request.output after.files)
      (fun _ after =>
        Tidy request.output after.files ∨
          session.files.Intact after.files) := by
  refine (Step.ends_get session).bind ?_
  rintro _ session ⟨rfl, rfl⟩
  have hCreate :=
    (ContainerFile.ends_create hSound
      (hFaults session.files.step) hLegacy
      (request.codec.codec request.level) request.options
      session.clock).fails
      (fun _ fs hFails =>
        (hFails.imp_left .inl :
          Tidy request.output fs ∨ session.files.Intact fs))
  refine
    (Command.ends_during (Command.ends_onFiles hCreate)
      fun _ _ hFails => hFails).bind ?_
  intro container start hStarted
  have hCopy :=
    intake.ends_copyTo ContainerWriter.lockstep_write
      ContainerWriter.lockstep_finish
      (hStarted.fits start.files) (.refl start.files)
  refine
    (hCopy.onFailure fun _ after hSame => ?_).bind ?_
  · exact
      .inl
        (.inl
          (ContainerFile.absent_discard container
            (hStarted.absent.sameNames hSame)))
  rintro ⟨tally, finished⟩ copied ⟨hSame, hFits, hCopied⟩
  have hClose :=
    (hStarted.close hSame hFits hCopied).fails
      (fun _ fs hAbsent =>
        (.inl (.inl hAbsent) :
          Tidy request.output fs ∨ session.files.Intact fs))
  refine (Command.ends_onFiles hClose).bind ?_
  intro _ last hTidy
  exact Step.ends_of_ok rfl hTidy

------------------------------------------------------------
-- Whole Commands
------------------------------------------------------------

/- What a compression leaves. -/
theorem ends_run
    [engines : Engines]
    (hEngines : engines.Measured)
    (hSound : session.files.Sound)
    (hFaults :
      ∀ step, session.files.faults step ≠ some .notFound)
    (hLegacy :
      session.files.nodeAt? (legacyPathFor request.output) =
        none) :
    request.run.Ends session
      (fun _ after => Tidy request.output after.files)
      (fun failure after =>
        Tidy request.output after.files ∨
          session.files.Intact after.files ∨
          request.raw = true ∧
            request.MissesIndex session.files failure) := by
  have hReport :
      ∀ tally (written : Session),
        Tidy request.output written.files →
          (Command.device (FileSystem.fileSize request.output) >>=
            fun packed =>
              Command.noteAll
                (request.summary tally packed)).Ends written
            (fun _ after => Tidy request.output after.files)
            (fun _ after => Tidy request.output after.files) := by
    intro tally written hTidy
    have hCounted :=
      hTidy.intact (FileSystem.intact_counted written.files)
    have hSize :=
      (written.files.ends_fileSize request.output).mono
        (fun _ fs hFiles =>
          (hFiles ▸ hCounted : Tidy request.output fs))
        (fun _ fs hFiles =>
          (hFiles ▸ hCounted : Tidy request.output fs))
    refine (Command.ends_onFiles hSize).bind ?_
    intro packed measured hMeasured
    exact
      Step.Ends.mono (Command.succeeds_noteAll _ measured)
        (fun _ _ hNoted => hNoted.1 ▸ hMeasured)
        (fun _ _ => False.elim)
  refine
    ((Intake.ends_fromPath request.input session).fails
      fun _ _ hIntact => .inr (.inl hIntact)).bind ?_
  rintro intake start ⟨hIntact, hSame, hFaults'⟩
  have hSound' := hSame.sound hSound
  rw [← hFaults'] at hFaults
  rw [← hIntact.nodeAt?_eq] at hLegacy
  by_cases hRaw : request.raw = true
  · rw [if_pos hRaw]
    have hWrite :=
      (request.ends_writeRaw hEngines hSound' hFaults hLegacy
        intake).fails
        (fun failure after hFails =>
          (hFails.imp_right fun hOther =>
            hOther.imp hIntact.trans fun hMisses =>
              ⟨hRaw, hIntact.nodeAt?_eq _ ▸ hMisses.1, hMisses.2⟩ :
            Tidy request.output after.files ∨
              session.files.Intact after.files ∨
              request.raw = true ∧
                request.MissesIndex session.files failure))
    refine hWrite.bind ?_
    intro tally written hTidy
    exact (hReport tally written hTidy).fails fun _ _ h => .inl h
  · rw [if_neg hRaw]
    have hWrite :=
      (request.ends_writeContainer hSound' hFaults hLegacy
        intake).fails
        (fun failure after hFails =>
          (hFails.imp_right fun hSame =>
            .inl (hIntact.trans hSame) :
            Tidy request.output after.files ∨
              session.files.Intact after.files ∨
              request.raw = true ∧
                request.MissesIndex session.files failure))
    refine hWrite.bind ?_
    intro tally written hTidy
    exact (hReport tally written hTidy).fails fun _ _ h => .inl h

end CompressRequest

end SplitStream
