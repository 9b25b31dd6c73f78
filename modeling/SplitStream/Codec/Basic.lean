import SplitStream.Bytes.Basic
import SplitStream.Codec.Status

/-
  This file defines codecs: a compressor and a decompressor
  for single blocks, with the byte that names them in a
  container header.

  A codec writes at the front of a buffer of a given size
  and reports a length or a status.  What it has written
  before it refuses a block stays in the buffer, and the
  reported length need not be the written one.

  The codecs of known formats leave their blocks to engines.
  These come from elsewhere, and nothing is said here of what
  they do.

  Key definitions include:
    * `Transfer`
    * `Transfer.Honest`
    * `Codec`
    * `Codec.Steady`
    * `Engine`
    * `Engines`
-/

------------------------------------------------------------
-- Transfers
------------------------------------------------------------

namespace SplitStream

/-
  The outcome of one use of a codec: the bytes it has
  written at the front of its buffer, and what it reports.
-/
structure Transfer where
  written : Bytes
  report : Except CodecStatus Nat

namespace Transfer

/- A use that wrote the given bytes and reports them all. -/
def success
    (written : Bytes) : Transfer where
  written := written
  report := .ok written.length

/- A refusal after the given bytes were written. -/
def refusal
    (written : Bytes)
    (status : CodecStatus) : Transfer where
  written := written
  report := .error status

/- A reported length is the number of bytes written. -/
def Honest
    (transfer : Transfer) : Prop :=
  ∀ n, transfer.report = .ok n → transfer.written.length = n

theorem honest_success
    (written : Bytes) :
    (success written).Honest := by
  intro n h
  simpa [success] using h

theorem honest_refusal
    (written : Bytes)
    (status : CodecStatus) :
    (refusal written status).Honest := by
  intro n h
  simp [refusal] at h

end Transfer

------------------------------------------------------------
-- Codecs
------------------------------------------------------------

/-
  A codec for single blocks.

  `compress attempt block room` packs a block into a buffer
  of `room` bytes; `attempt` counts the blocks handed to the
  codec before, since a codec that was short of memory may
  take a block when it is asked again.
  `decompress payload room` unpacks into a buffer of `room`
  bytes.  `overhead n` is the room that a block of `n` bytes
  may need beyond its own length.
-/
structure Codec where
  method : UInt8
  level : UInt8
  name : String
  overhead : Nat → Nat
  compress : Nat → Bytes → Nat → Transfer
  decompress : Bytes → Nat → Transfer
  describe : CodecStatus → String := CodecStatus.text

namespace Codec

/- The codec answers every attempt at a block alike. -/
def Steady
    (codec : Codec) : Prop :=
  ∀ first second block room,
    codec.compress first block room =
      codec.compress second block room

end Codec

------------------------------------------------------------
-- Engines
------------------------------------------------------------

/-
  An engine for single blocks, which is run at some setting.
  `bound n` is the room that it asks for to pack a block of
  `n` bytes.  Blocks are packed and unpacked as by a codec:
  the refusals are those that the codec makes of them.
-/
structure Engine
    (Setting : Type) where
  bound : Nat → Nat
  pack : Setting → Nat → Bytes → Nat → Transfer
  unpack : Bytes → Nat → Transfer

/-
  The engines of the bundled codecs.  That of LZ4 has nothing
  to set; that of Zstandard is set to a level.
-/
class Engines where
  lz4 : Engine Unit
  zstd : Engine Int

end SplitStream
