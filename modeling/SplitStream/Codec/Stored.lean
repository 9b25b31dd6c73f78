import SplitStream.Codec.Basic

/-
  This file defines the codec that copies blocks unchanged.

  Key definitions include:
    * `Stored.copy`
    * `Codec.stored`
-/

------------------------------------------------------------
-- Copying
------------------------------------------------------------

namespace SplitStream

/- Copy a block into a buffer that has room for all of it. -/
def Stored.copy
    (block : Bytes)
    (room : Nat) : Transfer :=
  if block.length ≤ room then
    .success block
  else
    .refusal [] .outputOverrun

/- The codec that copies blocks unchanged. -/
def Codec.stored : Codec where
  method := 0x40
  level := 0
  name := "stored"
  overhead := fun _ => 0
  compress := fun _ => Stored.copy
  decompress := Stored.copy

end SplitStream
