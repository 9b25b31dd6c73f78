import SplitStream.Action
import SplitStream.Bytes.Tape
import SplitStream.Channel
import SplitStream.FrameIndex.Basic

/-
  This file defines the capture of an index while frames are
  written.  Offsets are collected in a batch, and a full
  batch is written before the next offset is taken.

  Key definitions include:
    * `Capture`
    * `Capture.record`
    * `Capture.flush`
-/

------------------------------------------------------------
-- Captures
------------------------------------------------------------

namespace SplitStream

/-
  An index being captured: the channel it is written to, the
  layout of the offsets not yet written, the last offset,
  and the number of offsets.
-/
structure Capture
    (ω : Type) where
  channel : Channel ω
  batch : Tape
  last : Option Nat
  entries : Nat

namespace Capture

variable {ω : Type}

/- The number of offsets in a full batch. -/
def batchEntries : Nat :=
  1024

/- A capture that has recorded nothing. -/
def new
    (channel : Channel ω) : Capture ω where
  channel := channel
  batch := .empty
  last := none
  entries := 0

/-
  Write the batch and flush the channel.  A batch that could
  not be written is kept.
-/
def flush : Action (Capture ω × ω) Unit :=
  .ofStep fun (capture, world) =>
    let delivery :=
      capture.channel.deliver capture.batch.toBytes world
    match delivery.result with
    | .error kind =>
        (.error (.io kind), capture, delivery.world)
    | .ok () =>
        let emptied := { capture with batch := .empty }
        let (result, next) :=
          capture.channel.flush delivery.world
        (result.mapError .io, emptied, next)

/-
  Record an offset behind the last one.  A full batch is
  written first.
-/
def record
    (offset : Nat) : Action (Capture ω × ω) Unit := do
  let (capture, _) ← get
  if let some previous := capture.last then
    if offset ≤ previous then
      throw (.unorderedIndex previous offset)
  if batchEntries * FrameIndex.entrySize ≤
      capture.batch.size then
    flush
  modify fun (capture, world) =>
    ({ capture with
        batch :=
          capture.batch.append (FrameIndex.encodeOffset offset)
        last := some offset
        entries := capture.entries + 1 },
      world)

end Capture

end SplitStream
