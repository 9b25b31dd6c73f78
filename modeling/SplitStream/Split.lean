import SplitStream.FrameIndex.Basic
import SplitStream.Reader.Container
import SplitStream.Reader.Raw

/-
  This file defines splits: readers that start at an indexed
  frame instead of the start of a stream.

  Key definitions include:
    * `Split`
    * `Split.openContainer`
    * `Split.openRaw`
-/

------------------------------------------------------------
-- Splits
------------------------------------------------------------

namespace SplitStream

/- A reader and the offset it starts at. -/
structure Split
    (ρ : Type) where
  offset : Nat
  reader : ρ

namespace Split

/-
  Open a container at the last frame at or before `start`.
  The header at the beginning of the source is read first,
  and no frame can start inside it.  There is no split
  without frames.
-/
def openContainer
    (codec : Codec)
    (index : FrameIndex)
    (start : Nat) : Reading (Option (Split ContainerReader)) := do
  Reading.seek 0
  let header ← Header.read
  match index.startAtOrBefore start with
  | none => return none
  | some offset =>
    if offset < header.encodedLength then
      throw (.misuse
        (.offsetInHeader offset header.encodedLength))
    Reading.seek offset
    let reader ←
      ofExcept (ContainerReader.resume (← get) header codec)
    return some
      { offset := offset
        reader := reader.follow true }

/- Open a raw stream at the last frame at or before `start`. -/
def openRaw
    (codec : Codec)
    (index : FrameIndex)
    (start : Nat) : Reading (Option (Split RawReader)) := do
  match index.startAtOrBefore start with
  | none => return none
  | some offset =>
    Reading.seek offset
    return some
      { offset := offset
        reader := .new (← get) codec }

end Split

end SplitStream
