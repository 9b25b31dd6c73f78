import SplitStream.Checksum.Adler32
import SplitStream.Checksum.Crc32

/-
  This file defines the two kinds of checksum that frames
  carry, the data they may cover, and their computation over
  data that arrives in pieces.

  Key definitions include:
    * `Checksum`
    * `Checksum.Scope`
    * `Checksum.Running`
    * `Checksum.Running.update`
    * `Checksum.compute`

  Cutting the data into pieces does not change a checksum:
    * `Checksum.Running.update_append`
-/

------------------------------------------------------------
-- Kinds And Scopes
------------------------------------------------------------

namespace SplitStream

/- The kinds of checksum. -/
inductive Checksum where
  | adler32
  | crc32
  deriving DecidableEq, Repr

namespace Checksum

/- The name of a checksum in messages and listings. -/
def name : Checksum → String
  | adler32 => "Adler-32"
  | crc32 => "CRC-32"

/-
  The data that a recorded checksum covers: the block as it
  was handed in, or the payload it was packed into.
-/
inductive Scope where
  | plain
  | packed
  deriving DecidableEq, Repr

/- The name of a scope in messages. -/
def Scope.name : Scope → String
  | plain => "uncompressed"
  | packed => "compressed"

------------------------------------------------------------
-- Computation
------------------------------------------------------------

/- A checksum in progress. -/
inductive Running where
  | adler32 (sums : Adler32)
  | crc32 (crc : Crc32)

/- The checksum in progress of no bytes. -/
def start : Checksum → Running
  | adler32 => .adler32 .start
  | crc32 => .crc32 .start

namespace Running

/- Take more bytes into account. -/
def update
    (running : Running)
    (bs : Bytes) : Running :=
  match running with
  | .adler32 sums => .adler32 (bs.foldl Adler32.push sums)
  | .crc32 crc => .crc32 (bs.foldl Crc32.push crc)

/- The checksum of all bytes so far. -/
def value : Running → UInt32
  | .adler32 sums => sums.value
  | .crc32 crc => crc.value

/- Two updates are one update with both pieces. -/
theorem update_append
    (running : Running)
    (bs cs : Bytes) :
    running.update (bs ++ cs) =
      (running.update bs).update cs := by
  cases running <;> simp [update, List.foldl_append]

end Running

/- The checksum of a byte string. -/
def compute
    (kind : Checksum)
    (bs : Bytes) : UInt32 :=
  (kind.start.update bs).value

end Checksum

end SplitStream
