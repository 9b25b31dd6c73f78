/-
  This file defines the limits that writers and readers of
  both framings share.

  Key definitions include:
    * `maxBlockSize`
    * `defaultBlockSize`
-/

------------------------------------------------------------
-- Block Sizes
------------------------------------------------------------

namespace SplitStream

/- The largest block: 64 MiB. -/
def maxBlockSize : Nat :=
  64 * 1024 * 1024

/- The block size of a writer that is given none: 256 KiB. -/
def defaultBlockSize : Nat :=
  256 * 1024

end SplitStream
