import SplitStream.Bytes.Tape
import SplitStream.Reader.Staging
import SplitStream.Source

/-
  This file defines what the readers of both framings share:
  handing out the bytes of one frame after another, in
  pieces of any size.

  Every frame takes bytes from the source, so the number of
  bytes left there bounds the number of rounds of each loop.

  Key definitions include:
    * `FrameReader`
    * `FrameReader.Round`
    * `FrameReader.fill`
    * `FrameReader.read`
    * `FrameReader.readRange`
    * `FrameReader.readExactly`
    * `FrameReader.readToEnd`
    * `FrameReader.drain`
-/

------------------------------------------------------------
-- Frame Starts
------------------------------------------------------------

namespace SplitStream

/-
  Read the word that a frame starts with.  A source may end
  before it, but not inside it.
-/
def Reading.frameStart : Reading (Option Nat) := do
  let bs ← Reading.upTo 4
  if bs.isEmpty then
    return none
  else if bs.length = 4 then
    return some (Bytes.ofBigEndian bs)
  else
    throw (.truncated .frameLength)

/- Read a length inside a frame. -/
def Reading.frameLength : Reading Nat :=
  Reading.number (.truncated .frameLength) 4

/- Read the payload of a frame. -/
def Reading.framePayload
    (length : Nat) : Reading Bytes :=
  Reading.exactly (.truncated .framePayload) length

------------------------------------------------------------
-- Readers
------------------------------------------------------------

/-
  A reader of frames: it decodes the next frame into its
  staging area, or tells that there is none.
-/
class FrameReader
    (ρ : Type) where
  readFrame : Action ρ Bool
  source : ρ → Source
  staging : ρ → Staging
  withStaging : Staging → ρ → ρ
  frames : ρ → Nat

namespace FrameReader

/- What one round of a loop over frames finds. -/
inductive Round where
  | ended
  | member
  | frame
  deriving DecidableEq, Repr

variable {ρ : Type} [FrameReader ρ]

/- The number of bytes that are ready. -/
def available
    (reader : ρ) : Nat :=
  (staging reader).available

/- Nothing is ready. -/
def needsFrame
    (reader : ρ) : Bool :=
  (staging reader).needsFrame

/- A number of rounds that no loop over frames exceeds. -/
def rounds
    (reader : ρ) : Nat :=
  (source reader).remaining + 1

/- Hand out at most `n` of the bytes that are ready. -/
def takeReady
    (n : Nat) : Action ρ Bytes :=
  .ofStep fun reader =>
    let (bs, rest) := (staging reader).take n
    (.ok bs, withStaging rest reader)

/- Hand out all bytes that are ready. -/
def takeAll : Action ρ Bytes := do
  takeReady (available (← get))

/-
  Read frames until bytes are ready.  Frames without bytes
  are passed over.
-/
def fillRounds : Nat → Action ρ Bool
  | 0 => return false
  | n + 1 => do
      if !needsFrame (← get) then
        return true
      if ← readFrame then
        fillRounds n
      else
        return false

/- Read frames until bytes are ready or there is no frame. -/
def fill : Action ρ Bool := do
  fillRounds (rounds (← get) + 1)

/- Read at most `n` bytes, and none only at the end. -/
def read
    (n : Nat) : Action ρ Bytes := do
  if n = 0 then
    return []
  if ← fill then
    takeReady n
  else
    return []

/-
  Read into a range of a buffer.  The count and the buffer
  are returned; the rest of the buffer stays as it is.
-/
def readRange
    (buffer : Bytes)
    (offset length : Nat) : Action ρ (Nat × Bytes) := do
  ofExcept (checkRange buffer.length offset length)
  let bs ← read length
  return (bs.length,
    buffer.take offset ++ bs ++
      buffer.drop (offset + bs.length))

------------------------------------------------------------
-- Whole Streams
------------------------------------------------------------

/-
  Read until `want` more bytes have been added to `got`.
  Each round adds a byte at least.
-/
def readExactlyRounds : Nat → Nat → Tape → Action ρ Bytes
  | 0, _, got => return got.toBytes
  | n + 1, want, got => do
      if want = 0 then
        return got.toBytes
      let bs ← read want
      if bs.isEmpty then
        throw (.io .unexpectedEnd)
      readExactlyRounds n (want - bs.length) (got.append bs)

/- Read `n` bytes, or fail at the end of the stream. -/
def readExactly
    (n : Nat) : Action ρ Bytes :=
  readExactlyRounds (n + 1) n .empty

/- The bytes of a stream up to its end or to a failure. -/
structure Collected
    (ρ : Type) where
  bytes : Tape
  failure : Option Error
  reader : ρ

/- Add frames to what has been collected. -/
def drainRounds : Nat → ρ → Tape → Collected ρ
  | 0, reader, got => ⟨got, none, reader⟩
  | n + 1, reader, got =>
      match (readFrame : Action ρ Bool).perform reader with
      | (.error e, next) => ⟨got, some e, next⟩
      | (.ok false, next) => ⟨got, none, next⟩
      | (.ok true, next) =>
        let ready := staging next
        drainRounds n (withStaging ready.clear next)
          (got.append ready.ready)

/- Collect all further frames. -/
def drain
    (reader : ρ) : Collected ρ :=
  drainRounds (rounds reader) reader .empty

/- Collect the bytes that are ready and all further frames. -/
def readToEnd
    (reader : ρ) : Collected ρ :=
  let ready := staging reader
  drainRounds (rounds reader) (withStaging ready.clear reader)
    (.ofBytes ready.ready)

end FrameReader

end SplitStream
