import SplitStream.Command.Report
import SplitStream.Command.Request
import SplitStream.Command.Stream

/-
  This file defines the command that restores the file of a
  stream.  What was restored before a failure is kept.

  Key definitions include:
    * `Outtake`
    * `DecompressRequest.restore`
    * `DecompressRequest.run`
-/

------------------------------------------------------------
-- Output
------------------------------------------------------------

namespace SplitStream

/- Where restored bytes go. -/
inductive Outtake where
  | standard
  | stream (stream : OutputStream)

namespace Outtake

/- A single dash stands for the output of the session. -/
def fromPath
    (path : String) : Command Outtake :=
  if path = "-" then
    return standard
  else
    Command.during (.creatingOutput path) do
      let out ← Command.device (OutputStream.create path)
      return stream out

/- Write bytes. -/
def write
    (bs : Bytes) : Outtake → Command Unit
  | standard => Command.printBytes bs
  | stream out => Command.device (out.deliver bs)

/- Hand everything written so far to the file. -/
def flush : Outtake → Command Unit
  | standard => return ()
  | stream out => Command.device out.flushBuffer

/- Give up an outtake. -/
def discard : Outtake → Action FileSystem Unit
  | standard => return ()
  | stream out => out.discard

end Outtake

------------------------------------------------------------
-- Restoring
------------------------------------------------------------

namespace DecompressRequest

/- Write all bytes of a reader. -/
def restore
    {ρ : Type}
    [FrameReader ρ]
    (request : DecompressRequest)
    (reader : ρ)
    (out : Outtake) : Command (Nat × Nat) :=
  Command.during (.decoding request.input) do
    let collected := FrameReader.readToEnd reader
    out.write collected.bytes.toBytes
    match collected.failure with
    | some error => throw (.device error)
    | none =>
      return (FrameReader.frames collected.reader,
        collected.bytes.size)

/- Restore a file. -/
def run
    [Engines]
    (request : DecompressRequest) : Command Unit := do
  let described ← Described.read request.input request.codec
  let node ← Command.device (FileSystem.openNode request.input)
  let out ← Outtake.fromPath request.output
  Step.ensuring (Command.cleaning out.discard) do
    let (frames, total) ←
      match described.header with
      | some _ =>
        let reader ←
          Command.library
            (FileSystem.withSource node
              (ContainerReader.start described.codec))
        request.restore (reader.follow true) out
      | none =>
        let source := (← get).files.sourceOf node
        request.restore (RawReader.new source described.codec) out
    out.flush
    Command.noteAll
      [ Report.summaryLine "blocks" (toString frames),
        Report.summaryLine "raw size" (Report.size total) ]

end DecompressRequest

end SplitStream
