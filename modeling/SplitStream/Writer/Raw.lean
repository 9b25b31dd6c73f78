import SplitStream.Writer.Basic

/-
  This file defines the writer of raw streams: frames one
  after another, without a header and without a terminator.

  Key definitions include:
    * `RawWriter`
    * `RawWriter.new`
    * `RawWriter.write`
    * `RawWriter.flush`
    * `RawWriter.finish`
    * `RawWriter.close`
    * `RawWriter.reset`
-/

------------------------------------------------------------
-- Raw Writers
------------------------------------------------------------

namespace SplitStream

/- A writer of a raw stream. -/
structure RawWriter
    (ω : Type) where
  outlet : Outlet ω
  regrouper : Regrouper

namespace RawWriter

variable {ω α : Type}

/- A writer to a channel. -/
def new
    (channel : Channel ω)
    (codec : Codec)
    (blockSize : Nat) : Except Error (RawWriter ω) := do
  let regrouper ← Regrouper.new codec blockSize
  return { outlet := .new channel, regrouper := regrouper }

/- Capture an index to a channel. -/
def attach
    (writer : RawWriter ω)
    (channel : Channel ω) : Except Error (RawWriter ω) := do
  let outlet ← writer.outlet.attach channel
  return { writer with outlet := outlet }

/- A writer has been made with a regrouper. -/
theorem regrouper_of_new
    {channel : Channel ω}
    {codec : Codec}
    {blockSize : Nat}
    {writer : RawWriter ω}
    (hNew : new channel codec blockSize = .ok writer) :
    ∃ regrouper,
      Regrouper.new codec blockSize = .ok regrouper ∧
      writer =
        { outlet := .new channel, regrouper := regrouper } := by
  rcases ok_of_bind hNew with ⟨regrouper, hRegrouper, hWriter⟩
  exact ⟨regrouper, hRegrouper, (Except.ok.inj hWriter).symm⟩

/- A writer was attached to if its outlet was. -/
theorem outlet_of_attach
    {writer attached : RawWriter ω}
    {channel : Channel ω}
    (hAttach : writer.attach channel = .ok attached) :
    ∃ outlet,
      writer.outlet.attach channel = .ok outlet ∧
      attached = { writer with outlet := outlet } := by
  rcases ok_of_bind hAttach with ⟨outlet, hOutlet, hWriter⟩
  exact ⟨outlet, hOutlet, (Except.ok.inj hWriter).symm⟩

/- An action on the outlet. -/
def onOutlet
    (action : Action (Outlet ω × ω) α) :
    Action (RawWriter ω × ω) α :=
  .within
    (fun (writer, world) => (writer.outlet, world))
    (fun (outlet, world) (writer, _) =>
      ({ writer with outlet := outlet }, world))
    action

/- An action on the regrouper and the outlet. -/
def onRegrouper
    (action : Action (Regrouper × Outlet ω × ω) α) :
    Action (RawWriter ω × ω) α :=
  .within
    (fun (writer, world) =>
      (writer.regrouper, writer.outlet, world))
    (fun (regrouper, outlet, world) _ =>
      ({ outlet := outlet, regrouper := regrouper }, world))
    action

/- Take bytes and write every frame they complete. -/
def write
    (data : Bytes) : Action (RawWriter ω × ω) Unit :=
  onRegrouper
    (Regrouper.write (Outlet.emit Frame.rawPieces) data)

/-
  Write the bytes held over as a frame, and flush the index
  and the channel.
-/
def flush : Action (RawWriter ω × ω) Unit := do
  onRegrouper
    (Regrouper.flush (Outlet.emit Frame.rawPieces))
  onOutlet Outlet.flush

/- Flush, and return the number of frames. -/
def finish : Action (RawWriter ω × ω) Nat := do
  flush
  return (← get).1.outlet.frames

/- Drop the bytes held over. -/
def reset : Action (RawWriter ω × ω) Unit :=
  modify fun (writer, world) =>
    ({ writer with regrouper := writer.regrouper.reset }, world)

/-
  Finish and flush the index once more, after which the
  writer is not used any longer.
-/
def close : Action (RawWriter ω × ω) Unit := do
  let _ ← finish
  onOutlet (Outlet.onCapture Capture.flush)

instance : FrameWriter RawWriter where
  outlet := fun writer => writer.outlet
  regrouper := fun writer => writer.regrouper
  attach := attach
  write := write
  flush := flush
  finish := finish
  reset := reset
  close := close

end RawWriter

end SplitStream
