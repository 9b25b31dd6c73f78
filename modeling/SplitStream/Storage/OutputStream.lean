import SplitStream.Channel
import SplitStream.Storage.FileSystem

/-
  This file defines buffered streams to files.  A stream
  keeps small writes in a buffer of 8 KiB and hands it to the
  file when more comes than fits.  A stream that is given up
  hands over its buffer first, if that can be done.

  Key definitions include:
    * `OutputStream`
    * `OutputStream.create`
    * `OutputStream.flushBuffer`
    * `OutputStream.channel`
    * `OutputStream.deliver`
    * `OutputStream.sync`
    * `OutputStream.discard`
-/

------------------------------------------------------------
-- Streams
------------------------------------------------------------

namespace SplitStream

/- A stream open for writing, known by a number. -/
structure OutputStream where
  number : Nat
  deriving DecidableEq, Repr

namespace OutputStream

/- The size of the buffer. -/
def capacity : Nat :=
  8192

/- Open a stream to a new or emptied file. -/
def create
    (text : String) : Action FileSystem OutputStream := do
  let file ← FileSystem.createFile text
  let number ← FileSystem.freshNumber
  modify fun fs =>
    { fs with
      streams := fs.streams.set number
        { file := file
          position := 0
          buffer := .empty } }
  return { number := number }

/- The state of a stream. -/
def state
    (stream : OutputStream) : Action FileSystem OpenStream := do
  match (← get).streams.get? stream.number with
  | some state => return state
  | none => FileSystem.refuse .other

/- Change the state of a stream. -/
def setState
    (stream : OutputStream)
    (state : OpenStream) : Action FileSystem Unit :=
  modify fun fs =>
    { fs with streams := fs.streams.set stream.number state }

/- Write bytes to the file, past the buffer. -/
def writeThrough
    (stream : OutputStream)
    (bs : Bytes) : Action FileSystem Unit := do
  let state ← stream.state
  FileSystem.writeAt state.file state.position bs
  stream.setState
    { state with position := state.position + bs.length }

/- Hand the buffer to the file. -/
def flushBuffer
    (stream : OutputStream) : Action FileSystem Unit := do
  let state ← stream.state
  if state.buffer.size ≠ 0 then
    stream.writeThrough state.buffer.toBytes
    let after ← stream.state
    stream.setState { after with buffer := .empty }

/-
  Take bytes into the buffer.  What does not fit makes room
  first, and what fills a whole buffer is written at once.
-/
def write
    (stream : OutputStream)
    (bs : Bytes) : Action FileSystem Nat := do
  let state ← stream.state
  if capacity - state.buffer.size < bs.length then
    stream.flushBuffer
  if capacity ≤ bs.length then
    stream.writeThrough bs
  else
    let state ← stream.state
    stream.setState
      { state with buffer := state.buffer.append bs }
  return bs.length

/- The failure of a device behind an error. -/
def deviceResult
    {α : Type} :
    Except Error α × FileSystem → Except IoKind α × FileSystem
  | (result, fs) => (result.mapError Error.ioKind, fs)

/- The channel of a stream. -/
def channel
    (stream : OutputStream) : Channel FileSystem where
  write := fun bs fs =>
    deviceResult ((stream.write bs).perform fs)
  flush := fun fs =>
    deviceResult (stream.flushBuffer.perform fs)

/- Write all of the given bytes. -/
def deliver
    (stream : OutputStream)
    (bs : Bytes) : Action FileSystem Unit :=
  .ofStep fun fs =>
    let delivery := stream.channel.deliver bs fs
    (delivery.result.mapError .io, delivery.world)

/- Have the file stored. -/
def sync
    (_stream : OutputStream) : Action FileSystem Unit :=
  FileSystem.attempt

/- Forget a stream. -/
def forget
    (stream : OutputStream) : Action FileSystem Unit :=
  modify fun fs =>
    { fs with streams := fs.streams.erase stream.number }

/- Give up a stream. -/
def discard
    (stream : OutputStream) : Action FileSystem Unit := do
  modify stream.flushBuffer.final
  stream.forget

end OutputStream

end SplitStream
