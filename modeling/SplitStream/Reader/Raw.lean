import SplitStream.Reader.Basic

/-
  This file defines the reader of raw streams.

  Key definitions include:
    * `RawReader`
    * `RawReader.new`
    * `RawReader.readFrame`
    * `RawReader.reset`
-/

------------------------------------------------------------
-- Raw Readers
------------------------------------------------------------

namespace SplitStream

/- A reader of a raw stream. -/
structure RawReader where
  source : Source
  codec : Codec
  staging : Staging
  frames : Nat

namespace RawReader

/- A reader of a source from its position on. -/
def new
    (source : Source)
    (codec : Codec) : RawReader where
  source := source
  codec := codec
  staging := .empty
  frames := 0

/- A step that reads from the source. -/
def onSource
    {α : Type}
    (reading : Reading α) : Action RawReader α :=
  .within
    (fun reader => reader.source)
    (fun source reader => { reader with source := source })
    reading

/- Decode a payload of a block of `length` bytes. -/
def decode
    (payload : Bytes)
    (length : Nat) : Action RawReader Unit :=
  .ofStep fun reader =>
    let (result, staging) :=
      reader.staging.decompress reader.codec payload length
    match result with
    | .error e => (.error e, { reader with staging := staging })
    | .ok () =>
        (.ok (),
          { reader with
            staging := staging.commit length
            frames := reader.frames + 1 })

/- Drop the bytes that are ready. -/
def clear : Action RawReader Unit :=
  modify fun reader =>
    { reader with staging := reader.staging.clear }

/- The longest payload that is read. -/
def payloadBound
    (codec : Codec) : Nat :=
  maxBlockSize + codec.overhead maxBlockSize

/-
  Decode the next frame, if there is one.  The stream ends
  where its source ends.
-/
def readFrame : Action RawReader Bool := do
  clear
  match ← onSource Reading.frameStart with
  | none => return false
  | some plain =>
    let packed ← onSource Reading.frameLength
    if maxBlockSize < plain then
      throw (.corruptFrame (.plainLength plain))
    let bound := payloadBound (← get).codec
    if bound < packed then
      throw (.corruptFrame (.packedLength packed bound))
    let payload ← onSource (Reading.framePayload packed)
    decode payload plain
    return true

/- Drop the bytes that are ready. -/
def reset
    (reader : RawReader) : RawReader :=
  { reader with staging := reader.staging.clear }

/- Move the source of a reader. -/
def seek
    (reader : RawReader)
    (position : Nat) : RawReader :=
  { reader with source := reader.source.seek position }

instance : FrameReader RawReader where
  readFrame := readFrame
  source := fun reader => reader.source
  staging := fun reader => reader.staging
  withStaging := fun staging reader =>
    { reader with staging := staging }
  frames := fun reader => reader.frames

end RawReader

end SplitStream
