import SplitStream.Checksum.Selection
import SplitStream.Limits

/-
  This file defines the options of container writers.

  Key definitions include:
    * `WriterOptions`
    * `WriterOptions.standard`
-/

------------------------------------------------------------
-- Options
------------------------------------------------------------

namespace SplitStream

/-
  The block size, the recorded checksums, whether an index is
  captured beside a file, and the time in the header.
-/
structure WriterOptions where
  blockSize : Nat
  checksums : Selection
  index : Bool
  time : Option UInt32
  deriving DecidableEq, Repr

namespace WriterOptions

/- Adler-32 over plain and packed data, and no index. -/
def standard : WriterOptions where
  blockSize := defaultBlockSize
  checksums :=
    { plainAdler := true
      plainCrc := false
      packedAdler := true
      packedCrc := false }
  index := false
  time := none

/-
  The time in the header.  It is that of the clock if none is
  given.
-/
def headerTime
    (options : WriterOptions)
    (clock : UInt32) : UInt32 :=
  options.time.getD clock

end WriterOptions

end SplitStream
