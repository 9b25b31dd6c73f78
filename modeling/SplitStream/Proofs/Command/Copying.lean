import SplitStream.Command.Compress
import SplitStream.Proofs.Storage.ContainerFiles

/-
  Copies from an intake to a writer. Reading changes no file;
  a copy that succeeds has written everything and finished,
  and one that fails has at least kept all names.

  Main declarations:
    * `Intake.ends_readAll`
    * `Intake.ends_copyTo`
    * `Intake.ends_copyToRaw`
-/

------------------------------------------------------------
-- Reading
------------------------------------------------------------

namespace SplitStream

open OutputStream

/- Measuring a file changes nothing but the count. -/
theorem FileSystem.ends_fileSize
    (fs : FileSystem)
    (text : String) :
    (FileSystem.fileSize text).Ends fs
      (fun _ fs' => fs' = fs.counted)
      (fun _ fs' => fs' = fs.counted) := by
  refine
    ((fs.ends_openNode text).fails fun _ _ hFails =>
      hFails.2).bind ?_
  rintro node _ ⟨_, rfl⟩
  cases node with
  | directory => exact Step.ends_of_ok rfl rfl
  | file number => exact Step.ends_of_ok rfl rfl

namespace Intake

/- Choosing an intake changes nothing but the count. -/
theorem ends_fromPath
    (path : String)
    (session : Session) :
    (Intake.fromPath path).Ends session
      (fun _ after =>
        session.files.Intact after.files ∧
        session.files.SameNames after.files ∧
        after.files.faults = session.files.faults)
      (fun _ after => session.files.Intact after.files) := by
  unfold Intake.fromPath
  by_cases hDash : path = "-"
  · rw [if_pos hDash]
    exact Step.ends_of_ok rfl ⟨.refl _, .refl _, rfl⟩
  · rw [if_neg hDash]
    have hOpen :
        (Command.device (FileSystem.openNode path) >>= fun node =>
            (pure (entry node) : Command Intake)).Ends session
          (fun _ after => after.files = session.files.counted)
          (fun _ after =>
            after.files = session.files.counted) := by
      have hNode :=
        (session.files.ends_openNode path).fails
          fun _ _ hFails => hFails.2
      refine (Command.ends_onFiles hNode).bind ?_
      intro node after hOpened
      exact Step.ends_of_ok rfl hOpened.2
    have hIntact := FileSystem.intact_counted session.files
    have hSame := FileSystem.sameNames_counted session.files
    apply Command.ends_during
      (hOpen.mono (fun _ _ hDone => ?_) (fun _ _ hFails => hFails))
    · intro _ after hCounted
      rw [hCounted]
      exact hIntact
    · rw [hDone]
      exact ⟨hIntact, hSame, rfl⟩

/- Reading an intake to its end changes no files. -/
theorem ends_readAll
    (intake : Intake)
    (session : Session) :
    intake.readAll.Ends session
      (fun _ after => after.files = session.files)
      (fun _ after => after.files = session.files) := by
  cases intake with
  | standard => exact Step.ends_of_ok rfl rfl
  | entry node =>
    exact
      Command.ends_onFiles
        ((session.files.ends_withSource node _).mono
          (fun _ _ hDone => hDone.2) (fun _ _ hFails => hFails.2))

------------------------------------------------------------
-- Copying
------------------------------------------------------------

variable
  {base : FileSystem} {session : Session}

/-
  A copy that succeeds is one that would succeed where
  nothing fails.
-/
theorem ends_copyTo
    {W : Type → Type}
    [FrameWriter W]
    {Fits : W FileSystem → Prop}
    {writer : W FileSystem}
    (intake : Intake)
    (hWrite :
      ∀ bs,
        KeepsStep Fits (Calmer base) base.SameNames
          (FrameWriter.write bs))
    (hFinish :
      KeepsStep Fits (Calmer base) base.SameNames
        FrameWriter.finish)
    (hFits : Fits writer)
    (hSame : base.SameNames session.files) :
    (intake.copyTo writer).Ends session
      (fun result after =>
        base.SameNames after.files ∧
        Fits result.2 ∧
        FrameWriter.Copied writer session.files.calm result.2
          after.files.calm)
      (fun _ after => base.SameNames after.files) := by
  have hRead :=
    (intake.ends_readAll session).mono
      (fun _ _ hDone => hDone)
      (fun _ after hFiles =>
        (hFiles ▸ hSame : base.SameNames after.files))
  refine hRead.bind ?_
  intro bs read hFiles
  have hSame' : base.SameNames read.files := hFiles ▸ hSame
  rw [← hFiles]
  have hWriteAll :=
    FrameWriter.ends_withWriter
      (FrameWriter.lockstep_writeAll hWrite (bs.pieces copySize))
      hFits hSame'
  refine (Command.ends_onFiles hWriteAll).bind ?_
  rintro ⟨_, written⟩ middle ⟨hMiddle, hFits', hWritten⟩
  have hFinished :=
    FrameWriter.ends_withWriter hFinish hFits' hMiddle
  refine (Command.ends_onFiles hFinished).bind ?_
  rintro ⟨frames, finished⟩ after ⟨hAfter, hFits'', hDone⟩
  apply Step.ends_of_ok rfl
  exact
    ⟨hAfter, hFits'', _, written, middle.files.calm, frames,
      hWritten, hDone⟩

/- A copy to a raw stream closes the stream as well. -/
theorem ends_copyToRaw
    {writer : RawWriter FileSystem}
    (intake : Intake)
    (hFits : writer.Fits (Calmer base) base.SameNames)
    (hSame : base.SameNames session.files) :
    (intake.copyToRaw writer).Ends session
      (fun _ after =>
        base.SameNames after.files ∧
        ∃ finished closed, ∃ middle : FileSystem,
          FrameWriter.Copied writer session.files.calm finished
              middle ∧
            RawWriter.close.perform (finished, middle) =
              (.ok (), closed, after.files.calm))
      (fun _ after => base.SameNames after.files) := by
  refine
    (ends_copyTo intake RawWriter.lockstep_write
      RawWriter.lockstep_finish hFits hSame).bind ?_
  rintro ⟨tally, finished⟩ middle ⟨hMiddle, hFits', hCopied⟩
  have hClose :=
    FrameWriter.ends_withWriter RawWriter.lockstep_close hFits'
      hMiddle
  refine (Command.ends_onFiles hClose).bind ?_
  rintro ⟨_, closed⟩ after ⟨hAfter, _, hClosed⟩
  apply Step.ends_of_ok rfl
  exact
    ⟨hAfter, finished, closed, middle.files.calm, hCopied,
      hClosed⟩

end Intake

end SplitStream
