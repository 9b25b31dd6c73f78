import SplitStream.Checksum.Selection
import SplitStream.Container.Header
import SplitStream.Frame
import SplitStream.FrameIndex.Basic
import SplitStream.Reader.Basic

/-
  This file defines scans: the index of a stream is found by
  reading the headers of its frames and moving over their
  payloads.

  Offsets count from the position at which the scan starts.

  Key definitions include:
    * `Variant`
    * `Scan.detect`
    * `Scan.rounds`
    * `Scan.container`
    * `Scan.raw`
    * `Scan.stream`
-/

------------------------------------------------------------
-- Variants
------------------------------------------------------------

namespace SplitStream

/- The two framings of a stream. -/
inductive Variant where
  | raw
  | container
  deriving DecidableEq, Repr

namespace Scan

/-
  A stream that starts with the magic number is a container.
  The position stays where it is.
-/
def detect : Reading Variant := do
  let start ← Reading.position
  let head ← Reading.upTo 9
  Reading.seek start
  return if head = Container.magic then .container else .raw

------------------------------------------------------------
-- Rounds
------------------------------------------------------------

/-
  Where a scan stands: the position that it keeps track of,
  and the offsets that it has found, the last one first.
-/
structure Cursor where
  position : Nat
  found : List Nat

/-
  Go on from one state to the next, round by round, until a
  round finds the end.  Each round takes a word from the
  source.
-/
def rounds
    {σ : Type}
    (round : σ → Reading (Option σ)) : Nat → σ → Reading σ
  | 0, state => return state
  | n + 1, state => do
      match ← round state with
      | none => return state
      | some next => rounds round n next

------------------------------------------------------------
-- Containers
------------------------------------------------------------

/- A scan inside a member, whose checksums it skips. -/
structure MemberCursor extends Cursor where
  checksums : Selection

/-
  A further member follows at a position if the magic number
  stands there.
-/
def memberFollows
    (position stop : Nat) : Reading Bool := do
  if stop - position < 9 then
    return false
  let head ← Reading.exactly (.io .unexpectedEnd) 9
  Reading.seek position
  return head = Container.magic

/- Move over a frame, or over a terminator. -/
def containerRound
    (start stop : Nat)
    (cursor : MemberCursor) :
    Reading (Option MemberCursor) := do
  match ← Reading.frameStart with
  | none => throw (.truncated .endMarker)
  | some 0 =>
    let position := cursor.position + 4
    if ← memberFollows position stop then
      let header ← Header.read
      return some
        { position := position + header.encodedLength
          found := cursor.found
          checksums := .ofFlags header.flags }
    else
      return none
  | some plain =>
    let packed ← Reading.frameLength
    if maxBlockSize < plain ∨ plain < packed then
      throw (.corruptFrame
        (.lengthsAt (cursor.position - start) plain packed))
    let sums :=
      Frame.sumCount cursor.checksums (packed = plain)
    let next :=
      cursor.position + Frame.headerSize + 4 * sums + packed
    if stop < next then
      throw (.truncated .frameExtent)
    Reading.seek next
    return some
      { position := next
        found := (cursor.position - start) :: cursor.found
        checksums := cursor.checksums }

/- The index of a container. -/
def container : Reading FrameIndex := do
  let source ← get
  let start := source.position
  let header ← Header.read
  let cursor ←
    rounds (containerRound start source.size)
      (source.remaining + 1)
      { position := start + header.encodedLength
        found := []
        checksums := .ofFlags header.flags }
  ofExcept (FrameIndex.ofOffsets cursor.found.reverse)

------------------------------------------------------------
-- Raw Streams
------------------------------------------------------------

/- Move over a frame, up to the end of the source. -/
def rawRound
    (start stop : Nat)
    (cursor : Cursor) : Reading (Option Cursor) := do
  if stop ≤ cursor.position then
    return none
  if stop - cursor.position < Frame.headerSize then
    throw (.truncated .frameLength)
  let plain ← Reading.frameLength
  let packed ← Reading.frameLength
  if maxBlockSize < plain then
    throw (.corruptFrame
      (.plainLengthAt (cursor.position - start) plain))
  let next := cursor.position + Frame.headerSize + packed
  if stop < next then
    throw (.truncated .framePayload)
  Reading.seek next
  return some
    { position := next
      found := (cursor.position - start) :: cursor.found }

/- The index of a raw stream. -/
def raw : Reading FrameIndex := do
  let source ← get
  let start := source.position
  let cursor ←
    rounds (rawRound start source.size) (source.remaining + 1)
      { position := start, found := [] }
  ofExcept (FrameIndex.ofOffsets cursor.found.reverse)

/- The index of a stream of either framing. -/
def stream : Reading FrameIndex := do
  match ← detect with
  | .container => container
  | .raw => raw

end Scan

end SplitStream
