import SplitStream.Proofs.Command.Copying
import SplitStream.Proofs.Command.Looking
import SplitStream.Proofs.Storage.Serving
import SplitStream.Proofs.Writer.Completion

/-
  Data that is copied to a writer where nothing fails. It
  comes from the input of the session or from a file, which
  may lose its name once it is open; and all of it goes into
  the blocks that the writer has laid out.

  Main declarations:
    * `Session.Supplies`
    * `Intake.Brings`
    * `Intake.succeeds_fromPath`
    * `Intake.Brings.succeeds_copyTo`
    * `Intake.Brings.succeeds_copyToRaw`
-/

------------------------------------------------------------
-- Supplies
------------------------------------------------------------

namespace SplitStream

/-
  Some data is found under a path: it is the input of the
  session, or it is in a file that has none of some names.
-/
def Session.Supplies
    (path : String)
    (names : List String)
    (data : Bytes)
    (session : Session) : Prop :=
  if path = "-" then
    session.input = data
  else
    session.files.HasFile path data ∧
      session.files.Avoids path names

/- An action on the files leaves the input. -/
theorem Session.input_eq
    {session after : Session}
    (h : after = { session with files := after.files }) :
    after.input = session.input := by
  rw [h]

namespace Intake

/-
  An intake has some data to give. A file that has been
  opened need not have a name any more.
-/
inductive Brings
    (names : List String)
    (data : Bytes)
    (session : Session) : Intake → Prop where
  | standard
      (input_eq : session.input = data) :
      Brings names data session .standard
  | entry
      {number : Nat}
      (used : number < session.files.next)
      (elsewhere : session.files.Elsewhere names number)
      (bytes_eq : session.files.bytesOf number = data) :
      Brings names data session (.entry (.file number))

variable
  {names : List String} {data : Bytes} {intake : Intake}
  {session after : Session}

/- Data is there as long as the names are the only ones changed. -/
theorem Brings.spares
    (h : intake.Brings names data session)
    (hSpares : session.files.Spares names after.files)
    (hInput : after.input = session.input) :
    intake.Brings names data after := by
  cases h with
  | standard hData => exact .standard (hInput.trans hData)
  | entry hUsed hElsewhere hBytes =>
    rcases hSpares _ hUsed hElsewhere with
      ⟨hUsed', hElsewhere', hSame⟩
    exact .entry hUsed' hElsewhere' (hSame.trans hBytes)

/- A file that is there is opened. -/
theorem perform_fromPath
    {path : String}
    {number : Nat}
    (hDash : path ≠ "-")
    (hCalm : session.files.Calm)
    (hFile : session.files.IsFile path number) :
    (fromPath path).perform session =
      (.ok (.entry (.file number)),
        { session with files := session.files.counted }) := by
  have hOpen :
      (Command.device (FileSystem.openNode path)).perform
          session =
        (.ok (.file number),
          { session with files := session.files.counted }) := by
    unfold Command.device Command.onFiles
    rw [Step.perform_ofStep,
      FileSystem.openNode_of_isFile hCalm hFile]
    rfl
  unfold fromPath Command.during
  rw [if_neg hDash, Step.perform_ofStep,
    Step.perform_bind_of_ok hOpen]
  rfl

/- Data that is found under a path is opened. -/
theorem succeeds_fromPath
    {path : String}
    (hSound : session.files.Sound)
    (hCalm : session.files.Calm)
    (hSupplies : session.Supplies path names data) :
    (fromPath path).Succeeds session
      (fun intake after =>
        intake.Brings names data after ∧
        session.Counts after) := by
  unfold Session.Supplies at hSupplies
  by_cases hDash : path = "-"
  · rw [if_pos hDash] at hSupplies
    unfold fromPath
    rw [if_pos hDash]
    exact
      Step.ends_of_ok rfl ⟨.standard hSupplies, .refl session⟩
  · rw [if_neg hDash] at hSupplies
    rcases hSupplies with ⟨⟨number, hFile, hBytes⟩, hAvoids⟩
    have hElsewhere :=
      hSound.elsewhere hFile.nodeAt?_eq hAvoids
    have ⟨place, _, _, hNode⟩ := hFile
    have hSame := FileSystem.sameNames_counted session.files
    exact
      Step.ends_of_ok (perform_fromPath hDash hCalm hFile)
        ⟨.entry (hSound.used place.names number hNode)
            (hSame.elsewhere hElsewhere) hBytes,
          session.files.counted,
          session.files.counts_counted, rfl⟩

------------------------------------------------------------
-- Copies
------------------------------------------------------------

/- All data is read, and no file is changed. -/
theorem Brings.succeeds_readAll
    (h : intake.Brings names data session) :
    intake.readAll.Succeeds session
      (fun bs after =>
        bs = data ∧ after.files = session.files) := by
  cases h with
  | standard hData => exact Step.ends_of_ok rfl ⟨hData, rfl⟩
  | @entry number _ _ hBytes =>
    have hRead :
        (FileSystem.withSource (.file number)
            Reading.toEnd).Succeeds session.files
          (fun bs fs => bs = data ∧ fs = session.files) :=
      Step.ends_of_ok (session.files.perform_toEnd number)
        ⟨hBytes, rfl⟩
    refine
      Step.Succeeds.mono
        (Command.succeeds_onFiles hRead .device) ?_
    rintro bs after ⟨_, hData⟩
    exact hData

/- What is done with a writer is done to the files. -/
theorem succeeds_withWriter
    {W : Type → Type}
    {α : Type}
    {action : Action (W FileSystem × FileSystem) α}
    {writer : W FileSystem}
    {result : α}
    {next : W FileSystem × FileSystem}
    (hAction :
      action.perform (writer, session.files) =
        (.ok result, next))
    (failure : Error → Failure) :
    (Command.onFiles failure
        (FrameWriter.withWriter writer action)).Succeeds session
      (fun returned after =>
        returned = (result, next.1) ∧
        after.files = next.2) := by
  have hReturns :=
    Step.succeeds_of_ok (FrameWriter.perform_withWriter hAction)
  exact
    Step.Succeeds.mono
      (Command.succeeds_onFiles hReturns failure)
      fun _ _ hDone => hDone.2

/- All data is copied to a writer, and the writer finishes. -/
theorem Brings.succeeds_copyTo
    {W : Type → Type}
    [FrameWriter W]
    {size : Nat}
    {Open Ended : W FileSystem × FileSystem → List Bytes → Prop}
    {writer : W FileSystem}
    (h : intake.Brings names data session)
    (hFulfils : FrameWriter.Fulfils size Open Ended)
    (hOpen : Open (writer, session.files) [])
    (hNone : (FrameWriter.regrouper writer).held.size = 0) :
    (intake.copyTo writer).Succeeds session
      (fun result after =>
        ∃ blocks,
          Ended (result.2, after.files) blocks ∧
          Bytes.DividedInto size data blocks) := by
  refine h.succeeds_readAll.bind ?_
  rintro bs read ⟨rfl, hFiles⟩
  rw [← hFiles] at hOpen
  rcases hFulfils.copies hOpen hNone
    (bs.pieces copySize) with
    ⟨written, n, finished, blocks, hWrite, hFinish, hEnded,
      hDivided⟩
  rw [Bytes.flatten_pieces] at hDivided
  refine (succeeds_withWriter hWrite .device).bind ?_
  rintro _ middle ⟨rfl, hMiddle⟩
  have hFinish' :
      FrameWriter.finish.perform (written.1, middle.files) =
        (.ok n, finished) := by
    rw [hMiddle]
    exact hFinish
  refine (succeeds_withWriter hFinish' .library).bind ?_
  rintro _ last ⟨rfl, hLast⟩
  refine Step.ends_of_ok rfl ⟨blocks, ?_, hDivided⟩
  rw [hLast]
  exact hEnded

/- A copy to a raw stream closes the stream as well. -/
theorem Brings.succeeds_copyToRaw
    {receivers : Receivers FileSystem}
    {codec : Codec}
    {blockSize : Nat}
    {captured : Bool}
    {writer : RawWriter FileSystem}
    (h : intake.Brings names data session)
    (hSettled : receivers.Settled)
    (hTaking :
      RawWriter.Taking receivers codec blockSize captured
        (writer, session.files) [])
    (hNone : writer.regrouper.held.size = 0) :
    (intake.copyToRaw writer).Succeeds session
      (fun _ after =>
        ∃ blocks contents,
          RawWriter.Received receivers codec blockSize captured
            blocks contents after.files ∧
          Bytes.DividedInto blockSize data blocks) := by
  refine
    (h.succeeds_copyTo (RawWriter.fulfils hSettled) hTaking
      hNone).bind ?_
  rintro ⟨tally, finished⟩ middle ⟨blocks, hEnded, hDivided⟩
  rcases hEnded.close hSettled with
    ⟨contents, next, hClose, hReceived⟩
  refine (succeeds_withWriter hClose .library).bind ?_
  rintro _ last ⟨_, hLast⟩
  refine Step.ends_of_ok rfl ⟨blocks, contents, ?_, hDivided⟩
  rw [hLast]
  exact hReceived

end Intake

end SplitStream
