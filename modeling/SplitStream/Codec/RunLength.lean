import SplitStream.Bytes.Tape
import SplitStream.Codec.Basic

/-
  This file defines a small codec of runs.  A run of equal
  bytes is packed as its length and the byte, and runs of
  more than 255 bytes are cut.  It is not bundled, and serves
  where a codec is needed whose every step can be followed.

  Key definitions include:
    * `RunLength.compress`
    * `RunLength.decompress`
    * `Codec.runLength`
-/

------------------------------------------------------------
-- Packing
------------------------------------------------------------

namespace SplitStream

namespace RunLength

/- The length of the longest run. -/
def longest : Nat :=
  255

/-
  Pack a block from a run on.  `count` is the number of times
  that `current` has been seen in the run so far.  A run that
  does not fit into the room is not packed.
-/
def packFrom
    (room : Nat)
    (packed : Tape)
    (current : UInt8)
    (count : Nat) : Bytes → Transfer
  | [] =>
      if room < packed.size + 2 then
        .refusal packed.toBytes .outputOverrun
      else
        .success
          (packed.append [UInt8.ofNat count, current]).toBytes
  | b :: rest =>
      if b = current ∧ count < longest then
        packFrom room packed current (count + 1) rest
      else if room < packed.size + 2 then
        .refusal packed.toBytes .outputOverrun
      else
        packFrom room
          (packed.append [UInt8.ofNat count, current]) b 1 rest

/- Pack a block. -/
def compress
    (block : Bytes)
    (room : Nat) : Transfer :=
  match block with
  | [] => .success []
  | b :: rest => packFrom room .empty b 1 rest

------------------------------------------------------------
-- Unpacking
------------------------------------------------------------

/- Unpack one run after another. -/
def unpackFrom
    (room : Nat)
    (plain : Tape) : Bytes → Transfer
  | [] => .success plain.toBytes
  | [_] => .refusal plain.toBytes .inputNotConsumed
  | count :: b :: rest =>
      if count = 0 then
        .refusal plain.toBytes .failed
      else if room < plain.size + count.toNat then
        .refusal plain.toBytes .outputOverrun
      else
        unpackFrom room
          (plain.append (List.replicate count.toNat b)) rest

/- Unpack a payload. -/
def decompress
    (payload : Bytes)
    (room : Nat) : Transfer :=
  unpackFrom room .empty payload

end RunLength

/- The codec of runs. -/
def Codec.runLength : Codec where
  method := 0x50
  level := 7
  name := "rle"
  overhead := fun length => length
  compress := fun _ block room => RunLength.compress block room
  decompress := RunLength.decompress

end SplitStream
