import SplitStream.Command.Report
import SplitStream.Command.Request
import SplitStream.Command.Stream
import SplitStream.Split

/-
  This file defines the command that restores one block of a
  stream.  The index tells where the block starts, and only
  its frame is read.

  Key definitions include:
    * `BlockRequest.restore`
    * `BlockRequest.run`
-/

------------------------------------------------------------
-- Blocks
------------------------------------------------------------

namespace SplitStream

namespace BlockRequest

/- The bytes of the first frame of a split. -/
def firstFrame
    {ρ : Type}
    [FrameReader ρ]
    (split : Split ρ) : Except Error Bytes :=
  let first : Action ρ Bytes := do
    let _ ← (FrameReader.readFrame : Action ρ Bool)
    FrameReader.takeAll
  (first.perform split.reader).1

/- The bytes of the first frame of a split that can be opened. -/
def fromSplit
    {ρ : Type}
    [FrameReader ρ]
    (node : Node)
    (opening : Reading (Option (Split ρ))) : Command Bytes := do
  match ← Command.library
      (FileSystem.withSource node opening) with
  | none => throw .emptyIndex
  | some split => Command.library (ofExcept (firstFrame split))

/- Restore the block that starts at an offset. -/
def restore
    (request : BlockRequest)
    (described : Described)
    (index : FrameIndex)
    (offset : Nat) : Command Bytes := do
  let node ← Command.device (FileSystem.openNode request.file)
  Command.library (FileSystem.checkOffset offset)
  match described.header with
  | some _ =>
      fromSplit node
        (Split.openContainer described.codec index offset)
  | none =>
      fromSplit node (Split.openRaw described.codec index offset)

------------------------------------------------------------
-- Command
------------------------------------------------------------

/- Restore a block, and write it to a file or show it. -/
def run
    [Engines]
    (request : BlockRequest) : Command Unit := do
  let described ← Described.read request.file request.codec
  let (index, _) ← Command.findIndex request.file
  match index.position request.block with
  | none => throw (.blockBeyond request.block index.count)
  | some offset =>
    Command.note
      ("seeking to block " ++ toString request.block ++
        " (offset " ++ toString offset ++
        " bytes from file start)...")
    let bs ← request.restore described index offset
    Command.note ("  decoded " ++ Report.size bs.length)
    match request.output with
    | some path =>
      Command.device (FileSystem.putFile path bs)
      Command.note ("  written to " ++ Text.quotePath path)
    | none => Command.printAll (Report.dump request.block bs)

end BlockRequest

end SplitStream
