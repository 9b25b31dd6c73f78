import SplitStream.Writer.Outlet

/-
  This file defines what the writers of both framings share:
  they regroup the bytes they take into blocks and write the
  frame of each block to an outlet.

  Key definitions include:
    * `FrameWriter`
    * `FrameWriter.pending`
    * `FrameWriter.frames`
    * `FrameWriter.written`
    * `FrameWriter.withWriter`
    * `FrameWriter.writeRange`
    * `FrameWriter.writeAll`
-/

------------------------------------------------------------
-- Writers
------------------------------------------------------------

namespace SplitStream

/- A writer of frames to the channels of a world. -/
class FrameWriter
    (W : Type → Type) where
  outlet {ω : Type} : W ω → Outlet ω
  regrouper {ω : Type} : W ω → Regrouper
  attach {ω : Type} : W ω → Channel ω → Except Error (W ω)
  write {ω : Type} : Bytes → Action (W ω × ω) Unit
  flush {ω : Type} : Action (W ω × ω) Unit
  finish {ω : Type} : Action (W ω × ω) Nat
  reset {ω : Type} : Action (W ω × ω) Unit
  close {ω : Type} : Action (W ω × ω) Unit

namespace FrameWriter

variable {ω : Type} {W : Type → Type} [FrameWriter W]

/- The number of bytes held over. -/
def pending
    (writer : W ω) : Nat :=
  (regrouper writer).pending

/- The number of frames written. -/
def frames
    (writer : W ω) : Nat :=
  (outlet writer).frames

/- The number of bytes that the channel has taken. -/
def written
    (writer : W ω) : Nat :=
  (outlet writer).written

/- An action on a writer, which is returned beside the result. -/
def withWriter
    {α : Type}
    (writer : W ω)
    (action : Action (W ω × ω) α) : Action ω (α × W ω) :=
  .ofStep fun world =>
    let (result, writer, world) := action.perform (writer, world)
    (result.map fun a => (a, writer), world)

/- Take `length` bytes of a buffer from `offset` on. -/
def writeRange
    (buffer : Bytes)
    (offset length : Nat) : Action (W ω × ω) Unit := do
  ofExcept (checkRange buffer.length offset length)
  write ((buffer.drop offset).take length)

/- Take one byte string after another. -/
def writeAll : List Bytes → Action (W ω × ω) Unit
  | [] => pure ()
  | bs :: rest => do
      write bs
      writeAll rest

end FrameWriter

end SplitStream
