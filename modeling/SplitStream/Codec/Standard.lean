import SplitStream.Codec.Lz4.Search
import SplitStream.Codec.Zstd.Frame

/-
  This file defines the engines of the bundled codecs where no
  others are given.

  That of LZ4 packs a block as the sequences found in it if
  these unpack to the block and are shorter than the literals
  alone, and as literals alone otherwise.  That of Zstandard
  writes frames of copied blocks, which every reader of the
  format accepts; the level has no effect.

  Key definitions include:
    * `Lz4.bound`
    * `Lz4.pack`
    * `Lz4.engine`
    * `Zstd.bound`
    * `Zstd.engine`
    * `Engines.standard`
-/

------------------------------------------------------------
-- LZ4
------------------------------------------------------------

namespace SplitStream

namespace Lz4

/- The room within which every block of `n` bytes is packed. -/
def bound
    (n : Nat) : Nat :=
  20 + n * 110 / 100

/- Pack a block. -/
def pack
    (block : Bytes) : Bytes :=
  let alone := encodeLiterals block
  let (sequences, literals) := search block
  let packed := encode sequences literals
  if packed.length < alone.length ∧
      (decode packed block.length).written == block then
    packed
  else
    alone

/- Pack a block into a buffer that every such block fits. -/
def compress
    (block : Bytes)
    (room : Nat) : Transfer :=
  if room < bound block.length then
    .refusal [] .outputOverrun
  else
    .success (pack block)

/- The engine. -/
def engine : Engine Unit where
  bound := bound
  pack := fun _ _ => compress
  unpack := decode

end Lz4

------------------------------------------------------------
-- Zstandard
------------------------------------------------------------

namespace Zstd

/- The room within which every block of `n` bytes is packed. -/
def bound
    (n : Nat) : Nat :=
  n + n / 256 +
    (if n < maxBlock then (maxBlock - n) / 2048 else 0)

/- Pack a block into a buffer of `room` bytes. -/
def compress
    (block : Bytes)
    (room : Nat) : Transfer :=
  let frame := encode block
  if frame.length ≤ room then
    .success frame
  else
    .refusal [] .failed

/- The engine. -/
def engine : Engine Int where
  bound := bound
  pack := fun _ _ => compress
  unpack := decode

end Zstd

------------------------------------------------------------
-- Standard Engines
------------------------------------------------------------

/- The engines of this library, which need no other one. -/
instance Engines.standard : Engines where
  lz4 := Lz4.engine
  zstd := Zstd.engine

end SplitStream
