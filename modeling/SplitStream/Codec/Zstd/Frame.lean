import SplitStream.Bytes.Tape
import SplitStream.Codec.Basic

/-
  This file defines Zstandard frames whose blocks are copied
  or repeat one byte.

  A frame is a magic number, a descriptor, optional fields
  and blocks, the last of which is marked.  Frames that are
  to be skipped may stand between others.  Entropy-coded
  blocks, dictionaries and content checksums are refused.

  Key definitions include:
    * `Zstd.Descriptor`
    * `Zstd.decodeBlocks`
    * `Zstd.decode`
    * `Zstd.encode`
-/

------------------------------------------------------------
-- Frame Headers
------------------------------------------------------------

namespace SplitStream

namespace Zstd

/- The magic number of a frame. -/
def magic : Bytes :=
  [0x28, 0xB5, 0x2F, 0xFD]

/- The last three bytes of the magic number of a skipped frame. -/
def skippedMagic : Bytes :=
  [0x2A, 0x4D, 0x18]

/- The fields of a frame header that bear on its blocks. -/
structure Descriptor where
  dictionary : Nat
  checksum : Bool
  contentSize : Option Nat
  deriving DecidableEq, Repr

/- The number of bytes of a field with the given flag. -/
def dictionaryWidth : Nat → Nat
  | 0 => 0
  | 1 => 1
  | 2 => 2
  | _ => 4

/- The number of bytes of the content size. -/
def contentWidth
    (single : Bool) : Nat → Nat
  | 0 => if single then 1 else 0
  | 1 => 2
  | 2 => 4
  | _ => 8

/- The first `n` bytes and the rest, if there are so many. -/
def splitAt?
    (n : Nat)
    (input : Bytes) : Option (Bytes × Bytes) :=
  let first := input.take n
  if first.length < n then
    none
  else
    some (first, input.drop n)

/-
  Read a frame header after its magic number.  Windows above
  2^31 bytes and the reserved bit are refused.
-/
def readDescriptor
    (input : Bytes) : Option (Descriptor × Bytes) := do
  let (first, rest) ← splitAt? 1 input
  let bits := Bytes.ofLittleEndian first
  let single := bits / 32 % 2 = 1
  let (window, rest) ←
    splitAt? (if single then 0 else 1) rest
  let (dictionary, rest) ←
    splitAt? (dictionaryWidth (bits % 4)) rest
  let width := contentWidth single (bits / 64)
  let (size, rest) ← splitAt? width rest
  if bits / 8 % 2 = 1 ∨
      31 < 10 + Bytes.ofLittleEndian window / 8 then
    none
  else
    some
      ({ dictionary := Bytes.ofLittleEndian dictionary
         checksum := bits / 4 % 2 = 1
         contentSize :=
           if width = 0 then none
           else if width = 2 then
             some (Bytes.ofLittleEndian size + 256)
           else some (Bytes.ofLittleEndian size) },
        rest)

------------------------------------------------------------
-- Blocks
------------------------------------------------------------

/- What reading has produced, and the input left if it went well. -/
structure Progress where
  out : Tape
  rest : Option Bytes

/-
  Read blocks up to the last one and append what they stand
  for.
-/
def decodeBlocks
    (room : Nat)
    (input : Bytes)
    (out : Tape) : Progress :=
  match input with
  | b₀ :: b₁ :: b₂ :: rest =>
    let bits := b₀.toNat + 256 * b₁.toNat + 65536 * b₂.toNat
    let last := bits % 2 = 1
    let kind := bits / 2 % 4
    let size := bits / 8
    if room < out.size + size then
      ⟨out, none⟩
    else if kind = 0 then
      let content := rest.take size
      if content.length < size then
        ⟨out, none⟩
      else if last then
        ⟨out.append content, some (rest.drop size)⟩
      else
        decodeBlocks room (rest.drop size) (out.append content)
    else if kind = 1 then
      match rest with
      | [] => ⟨out, none⟩
      | b :: rest =>
        let content := List.replicate size b
        if last then
          ⟨out.append content, some rest⟩
        else
          decodeBlocks room rest (out.append content)
    else
      ⟨out, none⟩
  | _ => ⟨out, none⟩
termination_by input.length
decreasing_by
  all_goals
    simp only [List.length_cons, List.length_drop]
    omega

------------------------------------------------------------
-- Frames
------------------------------------------------------------

/-
  Read one frame and append what it stands for.  The content
  size must be the declared one.
-/
def decodeFrame
    (room : Nat)
    (input : Bytes)
    (out : Tape) : Progress :=
  match readDescriptor input with
  | none => ⟨out, none⟩
  | some (descriptor, rest) =>
    if descriptor.dictionary ≠ 0 ∨ descriptor.checksum then
      ⟨out, none⟩
    else
      let after := decodeBlocks room rest out
      match descriptor.contentSize with
      | none => after
      | some size =>
        if after.out.size - out.size = size then after
        else ⟨after.out, none⟩

/-
  Read frames one after another.  Every frame shortens the
  input, so as many rounds as there are bytes suffice.
-/
def decodeFrames
    (room : Nat) : Nat → Bytes → Tape → Transfer
  | _, [], out => .success out.toBytes
  | 0, _, out => .refusal out.toBytes .failed
  | rounds + 1, input, out =>
      if input.take 4 == magic then
        let after := decodeFrame room (input.drop 4) out
        match after.rest with
        | none => .refusal after.out.toBytes .failed
        | some rest => decodeFrames room rounds rest after.out
      else if (input.take 4).drop 1 == skippedMagic ∧
          (input.headD 0).toNat / 16 = 5 then
        match splitAt? 8 input with
        | none => .refusal out.toBytes .failed
        | some (header, rest) =>
          match splitAt?
              (Bytes.ofLittleEndian (header.drop 4)) rest with
          | none => .refusal out.toBytes .failed
          | some (_, rest) => decodeFrames room rounds rest out
      else
        .refusal out.toBytes .failed

/- Unpack frames into a buffer of `room` bytes. -/
def decode
    (frames : Bytes)
    (room : Nat) : Transfer :=
  decodeFrames room frames.length frames .empty

------------------------------------------------------------
-- Writing
------------------------------------------------------------

/- The largest block: 128 KiB. -/
def maxBlock : Nat :=
  131072

/- The header of a copied block. -/
def blockHeader
    (last : Bool)
    (size : Nat) : Bytes :=
  Bytes.littleEndian 3 (size * 8 + (if last then 1 else 0))

/- Copied blocks for a content, the last of them marked. -/
def encodeBlocks
    (content : Bytes) : Bytes :=
  if content.length ≤ maxBlock then
    blockHeader true content.length ++ content
  else
    blockHeader false maxBlock ++ content.take maxBlock ++
      encodeBlocks (content.drop maxBlock)
termination_by content.length
decreasing_by
  simp only [maxBlock, List.length_drop] at *
  omega

/- The header of a frame that is one segment of known size. -/
def frameHeader
    (size : Nat) : Bytes :=
  if size < 256 then
    magic ++ [0x20] ++ Bytes.littleEndian 1 size
  else if size < 65792 then
    magic ++ [0x60] ++ Bytes.littleEndian 2 (size - 256)
  else
    magic ++ [0xA0] ++ Bytes.littleEndian 4 size

/- One frame of copied blocks. -/
def encode
    (content : Bytes) : Bytes :=
  frameHeader content.length ++ encodeBlocks content

end Zstd

end SplitStream
