import SplitStream.Checksum.Selection
import SplitStream.Container.Header
import SplitStream.Reader.Basic

/-
  This file defines the reader of containers.

  A reader stands before a frame, behind the terminator of a
  member, or before a header that it is to read.  It goes on
  to the next member by itself if it is told to follow
  members; what is no member behind a terminator is ignored.

  Key definitions include:
    * `ReaderStage`
    * `ContainerReader`
    * `ContainerReader.resume`
    * `ContainerReader.start`
    * `ContainerReader.round`
    * `ContainerReader.readFrame`
    * `ContainerReader.reset`
-/

------------------------------------------------------------
-- Container Readers
------------------------------------------------------------

namespace SplitStream

/- Where a reader of a container stands. -/
inductive ReaderStage where
  | frames
  | ended
  | headerDue
  deriving DecidableEq, Repr

/- A reader of a container. -/
structure ContainerReader where
  source : Source
  codec : Codec
  header : Header
  checksums : Selection
  staging : Staging
  stage : ReaderStage
  followMembers : Bool
  frames : Nat

namespace ContainerReader

/- The method of a header must be that of the codec. -/
def checkMethod
    (codec : Codec)
    (header : Header) : Except Error Unit :=
  if header.method = codec.method then
    .ok ()
  else
    .error (.methodMismatch codec.method header.method)

/- A reader of a source that stands before a frame. -/
def resume
    (source : Source)
    (header : Header)
    (codec : Codec) : Except Error ContainerReader := do
  checkMethod codec header
  return {
    source := source
    codec := codec
    header := header
    checksums := .ofFlags header.flags
    staging := .empty
    stage := .frames
    followMembers := false
    frames := 0 }

/- A reader of a source that stands before a header. -/
def start
    (codec : Codec) : Reading ContainerReader := do
  let header ← Header.read
  ofExcept (resume (← get) header codec)

/- Tell a reader whether to follow members. -/
def follow
    (reader : ContainerReader)
    (on : Bool) : ContainerReader :=
  { reader with followMembers := on }

/- The reader stands behind a terminator. -/
def isFinished
    (reader : ContainerReader) : Bool :=
  reader.stage = .ended

------------------------------------------------------------
-- Members
------------------------------------------------------------

/- A step that reads from the source. -/
def onSource
    {α : Type}
    (reading : Reading α) : Action ContainerReader α :=
  .within
    (fun reader => reader.source)
    (fun source reader => { reader with source := source })
    reading

/- Drop the bytes that are ready. -/
def clear : Action ContainerReader Unit :=
  modify fun reader =>
    { reader with staging := reader.staging.clear }

/- Go on with the frames of the member of a header. -/
def startMember
    (header : Header) : Action ContainerReader Unit := do
  ofExcept (checkMethod (← get).codec header)
  modify fun reader =>
    { reader with
      header := header
      checksums := .ofFlags header.flags
      stage := .frames }

/-
  Go on with the next member, if the source goes on with a
  magic number.
-/
def nextMember : Action ContainerReader Bool := do
  let found ← onSource (Reading.upTo 9)
  if found ≠ Container.magic then
    return false
  startMember (← onSource Header.readAfterMagic)
  return true

------------------------------------------------------------
-- Frames
------------------------------------------------------------

/- Read the checksums of the given kinds. -/
def readSums : List Checksum → Reading (List (Checksum × UInt32))
  | [] => return []
  | kind :: rest => do
      let sum ← Reading.word (.truncated .frameChecksum)
      return (kind, sum) :: (← readSums rest)

/- Every recorded checksum must be that of the data. -/
def verify
    (scope : Checksum.Scope)
    (bs : Bytes) :
    List (Checksum × UInt32) → Except Error Unit
  | [] => .ok ()
  | (kind, expected) :: rest =>
      let actual := kind.compute bs
      if actual = expected then
        verify scope bs rest
      else
        .error (.checksumMismatch kind scope expected actual)

/- Put the block of a frame into the staging area. -/
def unpack
    (payload : Bytes)
    (length : Nat) : Action ContainerReader Unit :=
  .ofStep fun reader =>
    let (result, staging) :=
      if payload.length = length then
        (.ok (), reader.staging.copy payload)
      else
        reader.staging.decompress reader.codec payload length
    (result, { reader with staging := staging })

/-
  Check the block in the staging area and make its bytes
  ready.
-/
def deliver
    (length : Nat)
    (sums : List (Checksum × UInt32)) :
    Action ContainerReader Unit := do
  let reader ← get
  let staging := reader.staging.commit length
  ofExcept (verify .plain staging.ready sums)
  set { reader with
    staging := staging
    frames := reader.frames + 1 }

/- Decode the frame of a block of `plain` bytes. -/
def decodeFrame
    (plain : Nat) : Action ContainerReader Unit := do
  if maxBlockSize < plain then
    throw (.corruptFrame (.plainLength plain))
  let packed ← onSource Reading.frameLength
  if plain < packed then
    throw (.corruptFrame (.packedBeyondPlain packed plain))
  let checksums := (← get).checksums
  let plainSums ← onSource (readSums (checksums.kinds .plain))
  let packedSums ←
    if packed = plain then
      pure []
    else
      onSource (readSums (checksums.kinds .packed))
  let payload ← onSource (Reading.framePayload packed)
  ofExcept (verify .packed payload packedSums)
  unpack payload plain
  deliver plain plainSums

/-
  Go on behind the word that a frame starts with: at the end
  of the source, behind a terminator, or in a frame.
-/
def proceed :
    Option Nat → Action ContainerReader FrameReader.Round
  | none => throw (.truncated .endMarker)
  | some 0 => do
      modify fun reader => { reader with stage := .ended }
      if (← get).followMembers then
        return if ← nextMember then .member else .ended
      else
        return .ended
  | some plain => do
      decodeFrame plain
      return .frame

/- Find a frame, a further member, or the end. -/
def round : Action ContainerReader FrameReader.Round := do
  let reader ← get
  if reader.stage = .ended then
    return .ended
  if reader.stage = .headerDue then
    startMember (← onSource Header.read)
  proceed (← onSource Reading.frameStart)

/-
  Decode the next frame, if there is one.  Each round takes
  a word from the source.
-/
def readFrameRounds : Nat → Action ContainerReader Bool
  | 0 => return false
  | n + 1 => do
      match ← round with
      | .ended => return false
      | .member => readFrameRounds n
      | .frame => return true

/- Decode the next frame, if there is one. -/
def readFrame : Action ContainerReader Bool := do
  clear
  readFrameRounds ((← get).source.remaining + 1)

/-
  Drop the bytes that are ready.  Behind a terminator, the
  next frame is looked for in a new member.
-/
def reset
    (reader : ContainerReader) : ContainerReader :=
  { reader with
    staging := reader.staging.clear
    stage :=
      if reader.stage = .ended then
        .headerDue
      else
        reader.stage }

instance : FrameReader ContainerReader where
  readFrame := readFrame
  source := fun reader => reader.source
  staging := fun reader => reader.staging
  withStaging := fun staging reader =>
    { reader with staging := staging }
  frames := fun reader => reader.frames

end ContainerReader

end SplitStream
