import SplitStream.Bytes.Scratch
import SplitStream.Codec.Basic
import SplitStream.Error

/-
  This file defines staging areas, in which a reader decodes
  one frame at a time.  The bytes of a frame become ready
  once the whole frame has been decoded and checked; what
  earlier frames left in the area is never shown by a codec
  that reports what it has written.

  Key definitions include:
    * `Staging`
    * `Staging.clear`
    * `Staging.copy`
    * `Staging.decompress`
    * `Staging.commit`
    * `Staging.take`
-/

------------------------------------------------------------
-- Staging Areas
------------------------------------------------------------

namespace SplitStream

/-
  The area that frames are decoded into, and the bytes of
  the last frame that have not been handed out.
-/
structure Staging where
  area : Scratch
  ready : Bytes

namespace Staging

/- The staging area that nothing was decoded into. -/
def empty : Staging where
  area := .blank
  ready := []

instance : Inhabited Staging :=
  ⟨empty⟩

/- The number of bytes that are ready. -/
def available
    (staging : Staging) : Nat :=
  staging.ready.length

/- Nothing is ready. -/
def needsFrame
    (staging : Staging) : Bool :=
  staging.ready.isEmpty

/- Drop the bytes that are ready. -/
def clear
    (staging : Staging) : Staging :=
  { staging with ready := [] }

/- Put a stored payload into the area. -/
def copy
    (staging : Staging)
    (payload : Bytes) : Staging :=
  { staging with area := staging.area.overwrite payload }

/-
  Unpack a payload into the first `length` bytes of the
  area.  The codec must report just that length.
-/
def decompress
    (staging : Staging)
    (codec : Codec)
    (payload : Bytes)
    (length : Nat) : Except Error Unit × Staging :=
  let transfer := codec.decompress payload length
  let next :=
    staging.copy (transfer.written.take length)
  match transfer.report with
  | .error status =>
      (.error (.codec status (codec.describe status)), next)
  | .ok n =>
      if n = length then
        (.ok (), next)
      else
        (.error (.lengthMismatch length n), next)

/- Make the first `length` bytes of the area ready. -/
def commit
    (staging : Staging)
    (length : Nat) : Staging :=
  { staging with ready := staging.area.front length }

/- Hand out at most `n` of the bytes that are ready. -/
def take
    (staging : Staging)
    (n : Nat) : Bytes × Staging :=
  (staging.ready.take n,
    { staging with ready := staging.ready.drop n })

end Staging

end SplitStream
