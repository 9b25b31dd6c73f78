import SplitStream.Checksum.Selection

/-
  This file defines the layout of frames in both framings.

  A raw frame is the length of the block, the length of the
  payload, and the payload.  A container frame has checksums
  before the payload, and holds the block as it is if packing
  does not make it shorter; checksums of packed data are then
  left out.

  Key definitions include:
    * `Frame.rawPieces`
    * `Frame.isStored`
    * `Frame.containerPieces`
    * `Frame.terminator`
    * `Frame.sumCount`
-/

------------------------------------------------------------
-- Frames
------------------------------------------------------------

namespace SplitStream

namespace Frame

/- The number of bytes of the two lengths. -/
def headerSize : Nat :=
  8

/- The layout of a length. -/
def length
    (n : Nat) : Bytes :=
  Bytes.bigEndian 4 n

/- The layout of a checksum of some bytes. -/
def sum
    (bs : Bytes)
    (kind : Checksum) : Bytes :=
  Bytes.bigEndian 4 (kind.compute bs).toNat

/- The pieces in which a raw frame is written. -/
def rawPieces
    (block packed : Bytes) : List Bytes :=
  [length block.length, length packed.length, packed]

/- Packing does not make the block shorter. -/
def isStored
    (block packed : Bytes) : Bool :=
  block.length ≤ packed.length

/- The payload of a container frame. -/
def payload
    (block packed : Bytes) : Bytes :=
  if isStored block packed then block else packed

/- The pieces in which a container frame is written. -/
def containerPieces
    (checksums : Selection)
    (block packed : Bytes) : List Bytes :=
  [ length block.length,
    length (payload block packed).length ] ++
  (checksums.kinds .plain).map (sum block) ++
  (if isStored block packed then
    []
  else
    (checksums.kinds .packed).map (sum packed)) ++
  [payload block packed]

/- The word behind the last frame of a container member. -/
def terminator : Bytes :=
  length 0

/- The number of checksums in a container frame. -/
def sumCount
    (checksums : Selection)
    (stored : Bool) : Nat :=
  checksums.count .plain +
    (if stored then 0 else checksums.count .packed)

end Frame

end SplitStream
