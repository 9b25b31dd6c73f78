import SplitStream.Codec.Basic

/-
  This file defines LZ4 blocks: sequences of literals, each
  followed by a copy of bytes that stand further back in the
  output, and literals at the end.

  A token holds two lengths of four bits each.  A length of
  15 goes on in the bytes that follow, up to the first one
  below 255.

  Key definitions include:
    * `Lz4.Sequence`
    * `Lz4.encode`
    * `Lz4.decode`
-/

------------------------------------------------------------
-- Lengths
------------------------------------------------------------

namespace SplitStream

namespace Lz4

/- Add bytes to a length up to the first one below 255. -/
def extend
    (n : Nat) : Bytes → Option (Nat × Bytes)
  | [] => none
  | b :: rest =>
      if b = 255 then
        extend (n + 255) rest
      else
        some (n + b.toNat, rest)

/- Read a length from its four bits in a token. -/
def readLength
    (bits : Nat)
    (input : Bytes) : Option (Nat × Bytes) :=
  if bits = 15 then
    extend bits input
  else
    some (bits, input)

theorem length_le_of_extend
    {n m : Nat}
    {input rest : Bytes}
    (h : extend n input = some (m, rest)) :
    rest.length ≤ input.length := by
  induction input generalizing n with
  | nil => simp [extend] at h
  | cons b input ih =>
    unfold extend at h
    split at h
    · have := ih h
      simp only [List.length_cons]
      omega
    · simp only [Option.some.injEq, Prod.mk.injEq] at h
      simp [← h.2]

theorem length_le_of_readLength
    {bits n : Nat}
    {input rest : Bytes}
    (h : readLength bits input = some (n, rest)) :
    rest.length ≤ input.length := by
  unfold readLength at h
  split at h
  · exact length_le_of_extend h
  · simp only [Option.some.injEq, Prod.mk.injEq] at h
    simp [← h.2]

/- The four bits of a length in a token. -/
def lengthBits
    (n : Nat) : Nat :=
  min n 15

/- The bytes by which a length goes on after its token. -/
def lengthBytes
    (n : Nat) : Bytes :=
  if n < 15 then
    []
  else
    List.replicate ((n - 15) / 255) 255 ++
      [UInt8.ofNat ((n - 15) % 255)]

------------------------------------------------------------
-- Writing
------------------------------------------------------------

/-
  Literals followed by a copy of `length + 4` bytes that
  start `offset` bytes back.
-/
structure Sequence where
  literals : Bytes
  offset : Nat
  length : Nat
  deriving DecidableEq, Repr

/- The token of a number of literals and a copied length. -/
def token
    (literals length : Nat) : UInt8 :=
  UInt8.ofNat (lengthBits literals * 16 + lengthBits length)

/- The layout of one sequence. -/
def Sequence.encode
    (s : Sequence) : Bytes :=
  token s.literals.length s.length ::
    lengthBytes s.literals.length ++ s.literals ++
    Bytes.littleEndian 2 s.offset ++ lengthBytes s.length

/- The layout of literals at the end of a block. -/
def encodeLiterals
    (literals : Bytes) : Bytes :=
  token literals.length 0 ::
    lengthBytes literals.length ++ literals

/- The layout of a block. -/
def encode
    (sequences : List Sequence)
    (literals : Bytes) : Bytes :=
  sequences.flatMap Sequence.encode ++ encodeLiterals literals

------------------------------------------------------------
-- Reading
------------------------------------------------------------

/-
  Append `length` bytes, each a copy of the byte `offset`
  places before it.
-/
def copyBack
    (offset : Nat) : Nat → Array UInt8 → Array UInt8
  | 0, out => out
  | length + 1, out =>
      copyBack offset length
        (out.push (out.getD (out.size - offset) 0))

/-
  Read the sequences of a block and append what they stand
  for.  The block ends after literals.
-/
def decodeFrom
    (room : Nat)
    (input : Bytes)
    (out : Array UInt8) : Transfer :=
  match input with
  | [] => .refusal out.toList .inputOverrun
  | token :: afterToken =>
    match _hLiterals : readLength (token.toNat / 16) afterToken with
    | none => .refusal out.toList .inputOverrun
    | some (count, afterCount) =>
      let literals := afterCount.take count
      if literals.length < count then
        .refusal out.toList .failed
      else if room < out.size + count then
        .refusal out.toList .outputOverrun
      else
        let out := out.appendList literals
        match _hOffset : afterCount.drop count with
        | [] => .success out.toList
        | [_] => .refusal out.toList .inputOverrun
        | low :: high :: afterOffset =>
          let offset := low.toNat + high.toNat * 256
          if offset = 0 then
            .refusal out.toList .failed
          else
            match _hLength :
                readLength (token.toNat % 16) afterOffset with
            | none => .refusal out.toList .inputOverrun
            | some (length, rest) =>
              if room < out.size + (length + 4) then
                .refusal out.toList .outputOverrun
              else if out.size < offset then
                .refusal out.toList .lookbehindOverrun
              else
                decodeFrom room rest
                  (copyBack offset (length + 4) out)
termination_by input.length
decreasing_by
  have hRest := length_le_of_readLength _hLength
  have hCount := length_le_of_readLength _hLiterals
  have hDrop := congrArg List.length _hOffset
  simp only [List.length_drop, List.length_cons] at *
  omega

/- Unpack a block into a buffer of `room` bytes. -/
def decode
    (block : Bytes)
    (room : Nat) : Transfer :=
  decodeFrom room block #[]

end Lz4

end SplitStream
