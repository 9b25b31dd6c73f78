import SplitStream.Command.Report
import SplitStream.Command.Request
import SplitStream.Command.Stream

/-
  This file defines the commands that look at a stream: the
  one that writes its index, and the one that describes it.

  Key definitions include:
    * `Command.writeIndex`
    * `InspectRequest.describe`
    * `InspectRequest.listBlocks`
    * `InspectRequest.run`
-/

------------------------------------------------------------
-- Indexing
------------------------------------------------------------

namespace SplitStream

/- Scan a file and write its index beside it. -/
def Command.writeIndex
    (file : String) : Command Unit := do
  let index ←
    Command.during (.indexing file)
      (Command.library (IndexFile.rebuild file))
  Command.noteAll
    [ Report.summaryLine "blocks" (toString index.count),
      Report.summaryLine "index file"
        (Text.quotePath (IndexFile.pathFor file)) ]

------------------------------------------------------------
-- Description
------------------------------------------------------------

namespace InspectRequest

/- The lines that describe a stream. -/
def describe
    (request : InspectRequest)
    (described : Described)
    (index : FrameIndex)
    (origin : IndexOrigin)
    (size : Nat) : List String :=
  [ "=== splitz file: " ++ Text.quotePath request.file ++ " ===",
    "" ] ++
  (match described.header with
    | some header =>
        Report.headerLines header described.codec.name
    | none => [Report.detailLine "framing" "raw blocks"]) ++
  [ Report.detailLine "block count"
      (toString index.count ++ " (from " ++ origin.text ++ ")"),
    Report.detailLine "file on disk" (Report.size size) ]

/-
  The row of a frame.  Only a container can hold a block as
  it is; it does so if the two lengths are equal.
-/
def frameRow
    (inContainer : Bool)
    (block offset plain packed : Nat) : String :=
  Report.row (toString block) (toString offset)
    (Report.size packed) (Report.size plain)
    (if inContainer && packed == plain then "yes" else "")

/- Print the rows of the frames at the given offsets. -/
def printRows
    (node : Node)
    (inContainer : Bool) : Nat → List Nat → Command Unit
  | _, [] => return ()
  | block, offset :: rest => do
      Command.device (FileSystem.checkOffset offset)
      let lengths ←
        Command.during (.readingFrame offset)
          (Command.device (FileSystem.withSource node do
            Reading.seek offset
            Reading.exactly (.io .unexpectedEnd) 8))
      Command.print
        (frameRow inContainer block offset
          (Bytes.ofBigEndian (lengths.take 4))
          (Bytes.ofBigEndian (lengths.drop 4)))
      printRows node inContainer (block + 1) rest

/- Print a table of the frames. -/
def listBlocks
    (request : InspectRequest)
    (described : Described)
    (index : FrameIndex) : Command Unit := do
  let node ← Command.device (FileSystem.openNode request.file)
  Command.printAll Report.tableHead
  printRows node described.header.isSome 0 index.offsets

/- Describe a stream. -/
def run
    [Engines]
    (request : InspectRequest) : Command Unit := do
  let described ← Described.read request.file .stored
  let (index, origin) ← Command.findIndex request.file
  let size ←
    Command.device (FileSystem.fileSize request.file)
  Command.printAll
    (request.describe described index origin size)
  if request.blocks then
    request.listBlocks described index

end InspectRequest

end SplitStream
