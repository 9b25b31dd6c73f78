import SplitStream.Writer.Basic
import SplitStream.Writer.Options

/-
  This file defines the writer of containers.  A container
  is made of members; a member is a header, frames, and a
  terminator.

  The header of the first member is written when the writer
  is made.  Finishing writes the terminator.  After a reset
  the next frame, or the next finish, starts a new member.

  Key definitions include:
    * `MemberStage`
    * `ContainerWriter`
    * `ContainerWriter.new`
    * `ContainerWriter.write`
    * `ContainerWriter.flush`
    * `ContainerWriter.finish`
    * `ContainerWriter.reset`
    * `ContainerWriter.close`
-/

------------------------------------------------------------
-- Container Writers
------------------------------------------------------------

namespace SplitStream

/-
  The stage of the current member: its header is written, or
  its terminator is, or it is to begin with a header.
-/
inductive MemberStage where
  | opened
  | finished
  | headerDue
  deriving DecidableEq, Repr

/- A writer of a container. -/
structure ContainerWriter
    (ω : Type) where
  outlet : Outlet ω
  regrouper : Regrouper
  header : Header
  checksums : Selection
  stage : MemberStage

namespace ContainerWriter

variable {ω α : Type}

/- The header of every member of a writer. -/
def headerOf
    (codec : Codec)
    (options : WriterOptions)
    (clock : UInt32) : Header :=
  .new codec.method codec.level
    (options.checksums.toFlags ||| Container.unixSystem)
    (options.headerTime clock)

/-
  Make a writer to a channel and write the first header.  The
  block size is looked at first.
-/
def new
    (channel : Channel ω)
    (codec : Codec)
    (options : WriterOptions)
    (clock : UInt32) : Action ω (ContainerWriter ω) := do
  let regrouper ←
    ofExcept (Regrouper.new codec options.blockSize)
  let header := headerOf codec options clock
  .ofStep fun world =>
    let (result, outlet, world) :=
      (Outlet.putHeader header).perform (.new channel, world)
    (result.map fun _ =>
        { outlet := outlet
          regrouper := regrouper
          header := header
          checksums := options.checksums
          stage := .opened },
      world)

/- Capture an index to a channel. -/
def attach
    (writer : ContainerWriter ω)
    (channel : Channel ω) : Except Error (ContainerWriter ω) := do
  let outlet ← writer.outlet.attach channel
  return { writer with outlet := outlet }

/- A writer was attached to if its outlet was. -/
theorem outlet_of_attach
    {writer attached : ContainerWriter ω}
    {channel : Channel ω}
    (hAttach : writer.attach channel = .ok attached) :
    ∃ outlet,
      writer.outlet.attach channel = .ok outlet ∧
      attached = { writer with outlet := outlet } := by
  rcases ok_of_bind hAttach with ⟨outlet, hOutlet, hWriter⟩
  exact ⟨outlet, hOutlet, (Except.ok.inj hWriter).symm⟩

/- An action on the outlet. -/
def onOutlet
    (action : Action (Outlet ω × ω) α) :
    Action (ContainerWriter ω × ω) α :=
  .within
    (fun (writer, world) => (writer.outlet, world))
    (fun (outlet, world) (writer, _) =>
      ({ writer with outlet := outlet }, world))
    action

/- An action on the regrouper and the outlet. -/
def onRegrouper
    (action : Action (Regrouper × Outlet ω × ω) α) :
    Action (ContainerWriter ω × ω) α :=
  .within
    (fun (writer, world) =>
      (writer.regrouper, writer.outlet, world))
    (fun (regrouper, outlet, world) (writer, _) =>
      ({ writer with
          outlet := outlet
          regrouper := regrouper },
        world))
    action

/- The current writer. -/
def current :
    Action (ContainerWriter ω × ω) (ContainerWriter ω) :=
  return (← get).1

/- Enter a stage. -/
def enter
    (stage : MemberStage) : Action (ContainerWriter ω × ω) Unit :=
  modify fun (writer, world) =>
    ({ writer with stage := stage }, world)

/- Write the header if it is due. -/
def openMember : Action (ContainerWriter ω × ω) Unit := do
  let writer ← current
  if writer.stage = .headerDue then
    let _ ← onOutlet (Outlet.putHeader writer.header)
    enter .opened

/- What the writer does with a block. -/
def emission
    (writer : ContainerWriter ω) : Emission (Outlet ω × ω) :=
  Outlet.emit (Frame.containerPieces writer.checksums)

/-
  Take bytes and write every frame they complete.  This is
  refused between a finish and a reset.
-/
def write
    (data : Bytes) : Action (ContainerWriter ω × ω) Unit := do
  let writer ← current
  if writer.stage = .finished then
    throw (.misuse .writeAfterFinish)
  if !data.isEmpty then
    openMember
    onRegrouper (Regrouper.write writer.emission data)

/- Write the bytes held over as a frame. -/
def flushFrames : Action (ContainerWriter ω × ω) Unit := do
  let writer ← current
  if writer.regrouper.pending ≠ 0 then
    openMember
    onRegrouper (Regrouper.flush writer.emission)

/-
  Write the bytes held over as a frame, and flush the index
  and the channel.
-/
def flush : Action (ContainerWriter ω × ω) Unit := do
  flushFrames
  onOutlet Outlet.flush

/-
  Write the bytes held over and the terminator, flush, and
  return the number of frames.  A finished writer does
  nothing more.
-/
def finish : Action (ContainerWriter ω × ω) Nat := do
  let writer ← current
  if writer.stage = .finished then
    return writer.outlet.frames
  openMember
  flushFrames
  onOutlet (Outlet.put Frame.terminator)
  onOutlet Outlet.flush
  enter .finished
  return (← current).outlet.frames

/-
  Drop the bytes held over.  A finished writer is made ready
  for the next member.
-/
def reset : Action (ContainerWriter ω × ω) Unit :=
  modify fun (writer, world) =>
    ({ writer with
        regrouper := writer.regrouper.reset
        stage :=
          if writer.stage = .finished then
            .headerDue
          else
            writer.stage },
      world)

/-
  Finish an open member and flush the index and the channel
  once more, after which the writer is not used any longer.
-/
def close : Action (ContainerWriter ω × ω) Unit := do
  let writer ← current
  if writer.stage = .opened then
    let _ ← finish
  onOutlet (Outlet.onCapture Capture.flush)
  onOutlet Outlet.flushChannel

instance : FrameWriter ContainerWriter where
  outlet := fun writer => writer.outlet
  regrouper := fun writer => writer.regrouper
  attach := attach
  write := write
  flush := flush
  finish := finish
  reset := reset
  close := close

end ContainerWriter

end SplitStream
