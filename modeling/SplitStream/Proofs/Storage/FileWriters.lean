import SplitStream.Proofs.Scan.RawRounds
import SplitStream.Proofs.Storage.Companions
import SplitStream.Proofs.Writer.Closing
import SplitStream.Proofs.Writer.InStep

/-
  Writers whose channels are streams to files. As long as
  nothing has failed, a writer has come to what it would have
  come to in a tree without failures; when it is closed, the
  index that was written beside a file is that of the file.

  Main declarations:
    * `FrameWriter.ends_withWriter`
    * `FrameWriter.Copied`
    * `IndexFile.Ready`
    * `ContainerWriter.ready_of_close`
    * `RawWriter.ready_of_close`
-/

------------------------------------------------------------
-- Any Writers
------------------------------------------------------------

namespace SplitStream

/-
  What keeps in step with a calmer tree does the same there if
  it succeeds. Whatever happens, all names stay.
-/
theorem OutputStream.ends_of_lockstep
    {α : Type}
    {action : Action FileSystem α}
    {base fs : FileSystem}
    (hAction : action.Lockstep (Calmer base) base.SameNames)
    (hSame : base.SameNames fs) :
    action.Ends fs
      (fun a fs' =>
        base.SameNames fs' ∧
        action.perform fs.calm = (.ok a, fs'.calm))
      (fun _ fs' => base.SameNames fs') := by
  rcases hAction fs fs.calm ⟨hSame, rfl⟩ with
    ⟨result, fs', calmer, hLeft, hRight, hSame', rfl⟩ |
      ⟨e, fs', hLeft, hSame'⟩
  · cases result with
    | error e => exact Step.ends_of_error hLeft hSame'
    | ok a => exact Step.ends_of_ok hLeft ⟨hSame', hRight⟩
  · exact Step.ends_of_error hLeft hSame'

/- Having a file stored changes nothing but the count. -/
theorem OutputStream.ends_sync
    (stream : OutputStream)
    (fs : FileSystem) :
    stream.sync.Ends fs
      (fun _ fs' => fs' = fs.counted)
      (fun _ fs' => fs' = fs.counted) := by
  have hAttempt := FileSystem.perform_attempt fs
  cases hFault : fs.faults fs.step with
  | some kind =>
    rw [hFault] at hAttempt
    exact Step.ends_of_error hAttempt rfl
  | none =>
    rw [hFault] at hAttempt
    exact Step.ends_of_ok hAttempt rfl

namespace FrameWriter

open OutputStream

variable {α ω : Type} {W : Type → Type}

/- What succeeds with a writer returns the writer it leaves. -/
theorem perform_of_withWriter
    {action : Action (W ω × ω) α}
    {writer writer' : W ω}
    {world next : ω}
    {a : α}
    (h :
      (withWriter writer action).perform world =
        (.ok (a, writer'), next)) :
    action.perform (writer, world) = (.ok a, writer', next) := by
  rcases hAction : action.perform (writer, world) with
    ⟨result, later, last⟩
  simp only [withWriter, Step.perform_ofStep, hAction] at h
  cases result with
  | error e => cases h
  | ok b =>
    cases h
    rfl

/- So it is with what is done with a fitting writer. -/
theorem ends_withWriter
    {Fits : W FileSystem → Prop}
    {action : Action (W FileSystem × FileSystem) α}
    {writer : W FileSystem}
    {base fs : FileSystem}
    (hAction :
      KeepsStep Fits (Calmer base) base.SameNames action)
    (hFits : Fits writer)
    (hSame : base.SameNames fs) :
    (withWriter writer action).Ends fs
      (fun result fs' =>
        base.SameNames fs' ∧
        Fits result.2 ∧
        action.perform (writer, fs.calm) =
          (.ok result.1, result.2, fs'.calm))
      (fun _ fs' => base.SameNames fs') := by
  rcases withWriter_paced hAction hFits ⟨hSame, rfl⟩ with
    ⟨result, fs', calmer, hLeft, hRight, ⟨hSame', rfl⟩, hOk⟩ |
      ⟨e, fs', hLeft, hLost⟩
  · cases result with
    | error e => exact Step.ends_of_error hLeft hSame'
    | ok result =>
      exact
        Step.ends_of_ok hLeft
          ⟨hSame', hOk _ _ rfl, perform_of_withWriter hRight⟩
  · exact Step.ends_of_error hLeft hLost

/- Some bytes have been written, and the writer has finished. -/
def Copied
    [FrameWriter W]
    (writer : W ω)
    (world : ω)
    (finished : W ω)
    (next : ω) : Prop :=
  ∃ pieces written middle frames,
    (writeAll pieces).perform (writer, world) =
        (.ok (), written, middle) ∧
      finish.perform (written, middle) =
        (.ok frames, finished, next)

end FrameWriter

------------------------------------------------------------
-- Written Indexes
------------------------------------------------------------

/-
  The streams of a file and of its index are settled, and the
  index is the one that a scan of the file finds.
-/
def IndexFile.Ready
    (data : OutputStream)
    (index : IndexFile)
    (number indexNumber : Nat)
    (fs : FileSystem) : Prop :=
  ∃ bytes stored found,
    data.Settled number bytes fs ∧
    index.stream.Settled indexNumber stored fs ∧
    Scan.Finds Scan.stream bytes found ∧
    found.StoredAs stored bytes.length

variable
  {data : OutputStream} {index : IndexFile}
  {number indexNumber : Nat} {fs fs' : FileSystem}
  {codec : Codec} {kept : Bytes}

theorem IndexFile.Ready.counted
    (h : IndexFile.Ready data index number indexNumber fs) :
    IndexFile.Ready data index number indexNumber
      fs.counted := by
  rcases h with
    ⟨bytes, stored, found, hData, hIndex, hScan, hStored⟩
  exact
    ⟨bytes, stored, found, ⟨hData.state, hData.bytes⟩,
      ⟨hIndex.state, hIndex.bytes⟩, hScan, hStored⟩

/- A container and its index, when the container is closed. -/
theorem ContainerWriter.ready_of_close
    (hStreams : data.number ≠ index.stream.number)
    (hFiles : number ≠ indexNumber)
    {fields : Header}
    {writer closed : ContainerWriter FileSystem}
    (hKeeps :
      writer.Keeps (OutputStream.receivers hStreams hFiles) codec
        fields fs true false kept)
    (hClose :
      ContainerWriter.close.perform (writer, fs) =
        (.ok (), closed, fs'.calm)) :
    IndexFile.Ready data index number indexNumber fs' := by
  rcases hKeeps.close_of_ok hClose with
    ⟨segments, before, hComplete, ⟨hCalm, hData, hIndex⟩, hEnd⟩
  rcases OutputStream.settled_of_flushes hStreams.symm
    hFiles.symm hCalm hIndex hData hEnd with
    ⟨hIndexEnd, hDataEnd⟩
  refine
    ⟨_, _, .ofSegments segments,
      ⟨hDataEnd.state, hDataEnd.bytes⟩,
      ⟨hIndexEnd.state, hIndexEnd.bytes⟩,
      (Scan.finds_of_complete hComplete).2, ?_⟩
  apply FrameIndex.storedAs_of_lt rfl
  intro offset hOffset
  have hLess := Segment.lt_of_mem_offsets hOffset
  rwa [Nat.zero_add] at hLess

/- So it is when bytes have been copied to the container. -/
theorem ContainerWriter.ready_of_copied
    (hStreams : data.number ≠ index.stream.number)
    (hFiles : number ≠ indexNumber)
    {fields : Header}
    {writer finished closed : ContainerWriter FileSystem}
    {middle : FileSystem}
    (hKeeps :
      writer.Keeps (OutputStream.receivers hStreams hFiles) codec
        fields fs true false kept)
    (hCopied : FrameWriter.Copied writer fs finished middle)
    (hClose :
      ContainerWriter.close.perform (finished, middle) =
        (.ok (), closed, fs'.calm)) :
    IndexFile.Ready data index number indexNumber fs' := by
  rcases hCopied with
    ⟨pieces, written, before, frames, hWrite, hFinish⟩
  rcases hKeeps.writeAll_of_ok hWrite with ⟨all, hWritten⟩
  rcases hWritten.finish_of_ok hFinish with ⟨hFinished, _⟩
  exact ready_of_close hStreams hFiles hFinished hClose

/- A raw stream and its index, when the stream is closed. -/
theorem RawWriter.ready_of_close
    (hStreams : data.number ≠ index.stream.number)
    (hFiles : number ≠ indexNumber)
    {blockSize : Nat}
    {writer finished closed : RawWriter FileSystem}
    {middle : FileSystem}
    (hKeeps :
      RawWriter.Keeps (OutputStream.receivers hStreams hFiles)
        codec blockSize true writer fs kept)
    (hWord :
      blockSize + codec.overhead blockSize < Bytes.wordCount 4)
    (hCopied : FrameWriter.Copied writer fs finished middle)
    (hClose :
      RawWriter.close.perform (finished, middle) =
        (.ok (), closed, fs'.calm)) :
    IndexFile.Ready data index number indexNumber fs' := by
  rcases hCopied with
    ⟨pieces, written, before, frames, hWrite, hFinish⟩
  rcases hKeeps.writeAll_of_ok hWrite with ⟨all, hWritten⟩
  rcases hWritten.finish with
    ⟨result, finished', w, hPerform, hFinished⟩
  cases hPerform.symm.trans hFinish
  rcases hFinished.close_of_ok hClose with
    ⟨contents, last, hMade, ⟨hCalm, hData, hIndex⟩, hEnd⟩
  rcases OutputStream.settled_of_flushes hStreams hFiles hCalm
    hData hIndex hEnd with ⟨hDataEnd, hIndexEnd⟩
  have hFits : ∀ content ∈ contents, content.RawFits := by
    intro content hContent
    rcases hMade content hContent with ⟨hBlock, hPacked⟩
    exact
      { block_le := hBlock.block_le
        packed_lt :=
          Nat.lt_of_le_of_lt hPacked.length_le hWord }
  refine
    ⟨_, _, .ofContents contents,
      ⟨hDataEnd.state, hDataEnd.bytes⟩,
      ⟨hIndexEnd.state, hIndexEnd.bytes⟩,
      (Scan.finds_of_contents hFits).2.2, ?_⟩
  apply FrameIndex.storedAs_of_lt rfl
  intro offset hOffset
  have hLess := RawStream.lt_of_mem_offsets hOffset
  rwa [Nat.zero_add] at hLess

------------------------------------------------------------
-- First Steps
------------------------------------------------------------

/-
  Without an index, a writer keeps what it keeps in any world
  whose receiver of the container has received the same.
-/
theorem ContainerWriter.Keeps.transfer
    {ω : Type}
    {first second : Receivers ω}
    {fields : Header}
    {writer : ContainerWriter ω}
    {world next : ω}
    {torn : Bool}
    (h :
      writer.Keeps first codec fields world false torn kept)
    (hData : first.data = second.data)
    (hHolds :
      ∀ received,
        first.Holds world received [] →
          second.Holds next received []) :
    writer.Keeps second codec fields next false torn kept := by
  rcases h with ⟨segments, hStands, hKept⟩
  rcases hStands.transfer with ⟨hReceived, hSame⟩
  exact
    ⟨segments, hSame second next hData (hHolds _ hReceived),
      hKept⟩

end SplitStream
