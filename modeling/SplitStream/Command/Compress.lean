import SplitStream.Command.Report
import SplitStream.Command.Request
import SplitStream.Command.Session
import SplitStream.Storage.ContainerFile
import SplitStream.Writer.Raw

/-
  This file defines the command that compresses a file.  The
  index of an earlier file of that name never outlives it.

  Key definitions include:
    * `Intake`
    * `Intake.copyTo`
    * `CompressRequest.writeRaw`
    * `CompressRequest.writeContainer`
    * `CompressRequest.run`
-/

------------------------------------------------------------
-- Input
------------------------------------------------------------

namespace SplitStream

/- Where the bytes to compress come from. -/
inductive Intake where
  | standard
  | entry (node : Node)

namespace Intake

/- A single dash stands for the input of the session. -/
def fromPath
    (path : String) : Command Intake :=
  if path = "-" then
    return standard
  else
    Command.during (.openingInput path) do
      let node ← Command.device (FileSystem.openNode path)
      return entry node

/- All bytes that are still to come. -/
def readAll : Intake → Command Bytes
  | standard => do
      let session ← get
      set { session with input := [] }
      return session.input
  | entry node =>
      Command.device (FileSystem.withSource node Reading.toEnd)

end Intake

------------------------------------------------------------
-- Copying
------------------------------------------------------------

/- The number of bytes that have been read, and of frames written. -/
structure Tally where
  bytes : Nat
  frames : Nat
  deriving DecidableEq, Repr

namespace Intake

/- The number of bytes that are copied at a time. -/
def copySize : Nat :=
  8192

/- Write everything from an intake and finish the writer. -/
def copyTo
    {W : Type → Type}
    [FrameWriter W]
    (intake : Intake)
    (writer : W FileSystem) :
    Command (Tally × W FileSystem) := do
  let bs ← intake.readAll
  let (_, writer) ←
    Command.device
      (FrameWriter.withWriter writer
        (FrameWriter.writeAll (bs.pieces copySize)))
  let (frames, writer) ←
    Command.library
      (FrameWriter.withWriter writer FrameWriter.finish)
  return ({ bytes := bs.length, frames := frames }, writer)

/- Copy everything to a raw stream and close it. -/
def copyToRaw
    (intake : Intake)
    (writer : RawWriter FileSystem) : Command Tally := do
  let (tally, writer) ← intake.copyTo writer
  let _ ←
    Command.library
      (FrameWriter.withWriter writer RawWriter.close)
  return tally

end Intake

------------------------------------------------------------
-- Raw Streams
------------------------------------------------------------

namespace CompressRequest

/- The name of the index. -/
def indexPath
    (request : CompressRequest) : String :=
  IndexFile.pathFor request.output

/- The index of an earlier file is removed. -/
def removeStaleIndex
    (request : CompressRequest) : Command Unit :=
  Command.during (.removingIndex request.indexPath)
    (Command.device
      (ContainerFile.removeIfPresent request.indexPath))

/- Copy everything, with an index captured beside it. -/
def copyWithIndex
    (request : CompressRequest)
    (intake : Intake)
    (stream : OutputStream)
    (writer : RawWriter FileSystem) : Command Tally := do
  let index ←
    Command.library (IndexFile.create request.indexPath)
  let tally ←
    Step.onFailure (Command.cleaning index.discard) do
      let writer ←
        Command.library (ofExcept (writer.attach index.channel))
      let tally ← intake.copyToRaw writer
      Command.device stream.sync
      return tally
  let _ ← Command.library index.publish
  return tally

/- Write the output as a raw stream. -/
def writeRaw
    [Engines]
    (request : CompressRequest)
    (intake : Intake) : Command Tally := do
  let stream ←
    Command.during (.creatingOutput request.output)
      (Command.device (OutputStream.create request.output))
  Step.ensuring (Command.cleaning stream.discard) do
    let codec := request.codec.codec request.level
    let writer ←
      Command.library
        (ofExcept
          (RawWriter.new stream.channel codec request.blockSize))
    request.removeStaleIndex
    if request.index then
      request.copyWithIndex intake stream writer
    else
      intake.copyToRaw writer

------------------------------------------------------------
-- Containers
------------------------------------------------------------

/- The options of the container. -/
def options
    (request : CompressRequest) : WriterOptions :=
  { WriterOptions.standard with
    blockSize := request.blockSize
    checksums :=
      request.checksums.getD WriterOptions.standard.checksums
    index := request.index }

/- Write the output as a container. -/
def writeContainer
    [Engines]
    (request : CompressRequest)
    (intake : Intake) : Command Tally := do
  let clock := (← get).clock
  let file ←
    Command.during (.creatingOutput request.output)
      (Command.library
        (ContainerFile.create request.output
          (request.codec.codec request.level)
          request.options clock))
  let (tally, writer) ←
    Step.onFailure (Command.cleaning file.discard)
      (intake.copyTo file.writer)
  Command.library { file with writer := writer }.close
  return tally

------------------------------------------------------------
-- Summary
------------------------------------------------------------

/- The lines that tell what has been written. -/
def summary
    (request : CompressRequest)
    (tally : Tally)
    (packed : Nat) : List String :=
  [ Report.summaryLine "codec" request.codec.name,
    Report.summaryLine "framing"
      (if request.raw then "raw blocks" else "container"),
    Report.summaryLine "block size"
      (Report.size request.blockSize),
    Report.summaryLine "blocks" (toString tally.frames),
    Report.summaryLine "raw size" (Report.size tally.bytes),
    Report.summaryLine "compressed" (Report.size packed),
    Report.summaryLine "ratio"
      (Report.ratio tally.bytes packed) ] ++
  (if request.index then
    [Report.summaryLine "index"
      (Text.quotePath request.indexPath)]
  else [])

/- Compress a file. -/
def run
    [Engines]
    (request : CompressRequest) : Command Unit := do
  let intake ← Intake.fromPath request.input
  let tally ←
    if request.raw then
      request.writeRaw intake
    else
      request.writeContainer intake
  let packed ←
    Command.device (FileSystem.fileSize request.output)
  Command.noteAll (request.summary tally packed)

end CompressRequest

end SplitStream
