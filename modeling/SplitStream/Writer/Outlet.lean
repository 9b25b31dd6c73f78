import SplitStream.Container.Header
import SplitStream.Frame
import SplitStream.FrameIndex.Capture
import SplitStream.Regrouper

/-
  This file defines outlets, the side of a writer on which
  frames leave it: a channel, the number of bytes the channel has
  taken, the capture of an index if there is one, and the
  number of frames.

  Key definitions include:
    * `Outlet`
    * `Outlet.put`
    * `Outlet.putHeader`
    * `Outlet.emit`
    * `Outlet.flush`
    * `Outlet.attach`
-/

------------------------------------------------------------
-- Outlets
------------------------------------------------------------

namespace SplitStream

/- The side of a writer on which frames leave it. -/
structure Outlet
    (ω : Type) where
  channel : Channel ω
  written : Nat
  capture : Option (Capture ω)
  frames : Nat

namespace Outlet

variable {ω : Type}

/- An outlet that nothing has left. -/
def new
    (channel : Channel ω) : Outlet ω where
  channel := channel
  written := 0
  capture := none
  frames := 0

/- Deliver bytes and count those that were taken. -/
def put
    (bs : Bytes) : Action (Outlet ω × ω) Unit :=
  .ofStep fun (outlet, world) =>
    let delivery := outlet.channel.deliver bs world
    (delivery.result.mapError .io,
      { outlet with written := outlet.written + delivery.taken },
      delivery.world)

/- Deliver one piece after another. -/
def putAll : List Bytes → Action (Outlet ω × ω) Unit
  | [] => pure ()
  | piece :: rest => do
      put piece
      putAll rest

/-
  Write a header and return its length.  A name of more than
  255 bytes is refused before anything is written.
-/
def putHeader
    (header : Header) : Action (Outlet ω × ω) Nat := do
  if 255 < header.name.length then
    throw (.misuse (.overlongName header.name.length))
  putAll header.pieces
  return header.writtenLength

/- An action on the capture, if there is one. -/
def onCapture
    (action : Action (Capture ω × ω) Unit) :
    Action (Outlet ω × ω) Unit :=
  .ofStep fun (outlet, world) =>
    match outlet.capture with
    | none => (.ok (), outlet, world)
    | some capture =>
      let (result, next, world) :=
        action.perform (capture, world)
      (result, { outlet with capture := some next }, world)

/-
  Write a frame: its offset is recorded first, and it counts
  once all its pieces have been delivered.
-/
def emit
    (layout : Bytes → Bytes → List Bytes) :
    Emission (Outlet ω × ω) :=
  fun block packed => do
    let (outlet, _) ← get
    onCapture (Capture.record outlet.written)
    putAll (layout block packed)
    modify fun (outlet, world) =>
      ({ outlet with frames := outlet.frames + 1 }, world)

/- Flush the channel. -/
def flushChannel : Action (Outlet ω × ω) Unit :=
  .ofStep fun (outlet, world) =>
    let (result, world) := outlet.channel.flush world
    (result.mapError .io, outlet, world)

/- Flush the capture, then the channel. -/
def flush : Action (Outlet ω × ω) Unit := do
  onCapture Capture.flush
  flushChannel

/-
  Attach a new capture.  This must be done before the first
  frame.
-/
def attach
    (outlet : Outlet ω)
    (channel : Channel ω) : Except Error (Outlet ω) :=
  if 0 < outlet.frames then
    .error (.misuse (.lateIndex outlet.frames))
  else
    .ok { outlet with capture := some (.new channel) }

end Outlet

end SplitStream
