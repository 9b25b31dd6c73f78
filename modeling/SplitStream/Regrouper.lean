import SplitStream.Action
import SplitStream.Bytes.Scratch
import SplitStream.Bytes.Tape
import SplitStream.Codec.Basic

/-
  This file defines the regrouping of written bytes into
  blocks.  Bytes are held over until they fill a block; each
  full block is compressed and handed to an emission, which
  decides on the layout.  A flush hands over the bytes held
  as a last, shorter block.

  A block that could not be emitted is dropped by the write
  that offered it, unless it was held over: a full block that
  is held stays and is tried again first.

  Key definitions include:
    * `Emission`
    * `Regrouper`
    * `Regrouper.compressBlock`
    * `Regrouper.write`
    * `Regrouper.flush`
    * `Regrouper.reset`
-/

------------------------------------------------------------
-- Regroupers
------------------------------------------------------------

namespace SplitStream

/-
  What is done with a block: it is given as it was written
  and as it was compressed.
-/
abbrev Emission
    (σ : Type) : Type :=
  Bytes → Bytes → Action σ Unit

/-
  A codec, a block size, the bytes held over, the buffer the
  codec writes to, and the number of blocks handed to it.
-/
structure Regrouper where
  codec : Codec
  blockSize : Nat
  blockSize_pos : 0 < blockSize
  held : Tape
  output : Scratch
  attempts : Nat

namespace Regrouper

variable {σ : Type}

/- A block size must lie between 1 byte and 64 MiB. -/
def new
    (codec : Codec)
    (blockSize : Nat) : Except Error Regrouper :=
  if h : 0 < blockSize ∧ blockSize ≤ maxBlockSize then
    .ok
      { codec := codec
        blockSize := blockSize
        blockSize_pos := h.1
        held := .empty
        output := .blank
        attempts := 0 }
  else
    .error (.misuse (.blockSize blockSize))

/- The size of the buffer the codec writes to. -/
def room
    (regrouper : Regrouper) : Nat :=
  regrouper.blockSize +
    regrouper.codec.overhead regrouper.blockSize

/- The number of bytes held over. -/
def pending
    (regrouper : Regrouper) : Nat :=
  regrouper.held.size

/-
  Compress a block and hand it to the emission.  A codec
  that reports more than its buffer holds is refused.
-/
def compressBlock
    (regrouper : Regrouper)
    (emit : Emission σ)
    (block : Bytes)
    (s : σ) : Except Error Unit × Regrouper × σ :=
  let codec := regrouper.codec
  let room := regrouper.room
  let transfer :=
    codec.compress regrouper.attempts block room
  let next : Regrouper :=
    { regrouper with
      output :=
        regrouper.output.overwrite (transfer.written.take room)
      attempts := regrouper.attempts + 1 }
  match transfer.report with
  | .error status =>
      (.error (.codec status (codec.describe status)), next, s)
  | .ok n =>
      if room < n then
        (.error (.misuse (.overlongReport codec.name n room)),
          next, s)
      else
        let (result, t) :=
          (emit block (next.output.front n)).perform s
        (result, next, t)

------------------------------------------------------------
-- Writing
------------------------------------------------------------

/-
  Take bytes and emit every block they complete.  With
  nothing held over, blocks are taken straight from the
  bytes; otherwise the bytes first complete the held block.
-/
def writeFrom
    (emit : Emission σ)
    (data : Bytes)
    (regrouper : Regrouper)
    (s : σ) : Except Error Unit × Regrouper × σ :=
  match _hData : data with
  | [] => (.ok (), regrouper, s)
  | _ :: _ =>
    let missing := regrouper.blockSize - regrouper.held.size
    let piece := data.take missing
    if piece.length < missing then
      (.ok (),
        { regrouper with held := regrouper.held.append piece },
        s)
    else if _hHeld : regrouper.held.size = 0 then
      match regrouper.compressBlock emit piece s with
      | (.error e, next, t) => (.error e, next, t)
      | (.ok (), next, t) =>
          writeFrom emit (data.drop missing) next t
    else
      let filled :=
        { regrouper with held := regrouper.held.append piece }
      match filled.compressBlock emit filled.held.toBytes s with
      | (.error e, next, t) => (.error e, next, t)
      | (.ok (), next, t) =>
          writeFrom emit (data.drop missing)
            { next with held := .empty } t
termination_by 2 * data.length + min 1 regrouper.held.size
decreasing_by
  · have := regrouper.blockSize_pos
    simp only [_hData, List.length_drop, List.length_cons]
    omega
  · simp only [_hData, List.length_drop, List.length_cons,
      Tape.empty]
    omega

/- Take bytes and emit every block they complete. -/
def write
    (emit : Emission σ)
    (data : Bytes) : Action (Regrouper × σ) Unit :=
  .ofStep fun (regrouper, s) =>
    regrouper.writeFrom emit data s

/- Emit the bytes held over as a last block. -/
def flush
    (emit : Emission σ) : Action (Regrouper × σ) Unit :=
  .ofStep fun (regrouper, s) =>
    if regrouper.held.size = 0 then
      (.ok (), regrouper, s)
    else
      match regrouper.compressBlock emit
          regrouper.held.toBytes s with
      | (.error e, next, t) => (.error e, next, t)
      | (.ok (), next, t) =>
          (.ok (), { next with held := .empty }, t)

/- Drop the bytes held over. -/
def reset
    (regrouper : Regrouper) : Regrouper :=
  { regrouper with held := .empty }

end Regrouper

end SplitStream
