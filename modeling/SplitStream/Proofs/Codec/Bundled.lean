import SplitStream.Proofs.Codec.Lossless
import SplitStream.Proofs.Codec.Room

/-
  The bundled codecs over whatever engines there are. If the
  engines ask for the room that their formats are known to
  need, the codecs keep to their bounds. If the engines pack
  all blocks in this room, no codec fails; and if they unpack
  what they have made, a block that a stream can hold is not
  lost, whatever the level of its codec.

  Main declarations:
    * `Engine.Packs`
    * `Engine.Lossless`
    * `Engines.Measured`
    * `Engines.Roomy`
    * `Engines.Sound`
    * `Codec.RunsOn`
    * `Bundled.fits_codec`
    * `Codec.FaithfulTo`
    * `Bundled.faithfulTo`
    * `Bundled.codecOfMethod_method`
-/

------------------------------------------------------------
-- Engines
------------------------------------------------------------

namespace SplitStream

namespace Engine

variable {Setting : Type}

/-
  The engine packs every block of a writer in the room that
  it asks for.
-/
def Packs
    (engine : Engine Setting) : Prop :=
  ∀ setting attempt block room,
    block ≠ [] →
    block.length ≤ maxBlockSize →
    engine.bound block.length ≤ room →
      ∃ length,
        (engine.pack setting attempt block room).report =
          .ok length ∧
        length ≤ room

/-
  The engine loses nothing: it has written all that it
  reports of a block, and unpacks it to the block.
-/
def Lossless
    (engine : Engine Setting) : Prop :=
  ∀ setting attempt block room length,
    block.length ≤ maxBlockSize →
    (engine.pack setting attempt block room).report =
      .ok length →
    length ≤ room →
      let written :=
        (engine.pack setting attempt block room).written
      length ≤ written.length ∧
        engine.unpack (written.take length) block.length =
          .success block

end Engine

namespace Engines

/-
  The engines ask for the room that their formats are known
  to need.
-/
structure Measured
    (engines : Engines) : Prop where
  lz4 : ∀ n, engines.lz4.bound n = Bundled.lz4.bound n
  zstd : ∀ n, engines.zstd.bound n = Bundled.zstd.bound n

/- This room is enough for them. -/
structure Roomy
    (engines : Engines) : Prop extends engines.Measured where
  lz4_packs : engines.lz4.Packs
  zstd_packs : engines.zstd.Packs

/- And they lose nothing. -/
structure Sound
    (engines : Engines) : Prop extends engines.Roomy where
  lz4_lossless : engines.lz4.Lossless
  zstd_lossless : engines.zstd.Lossless

end Engines

------------------------------------------------------------
-- Faithful Codecs
------------------------------------------------------------

namespace Codec

/-
  Whatever the codec packs a block of at most a given size
  into, it unpacks it to the block.
-/
def FaithfulTo
    (codec : Codec)
    (size : Nat) : Prop :=
  ∀ buffer attempt block room length,
    block.length ≤ size →
    (codec.compress attempt block room).report = .ok length →
    length ≤ room →
      codec.Restores
        (codec.packedIn buffer attempt block room length)
        block

/- The codec leaves its blocks to an engine. -/
structure RunsOn
    {Setting : Type}
    (codec : Codec)
    (engine : Engine Setting)
    (setting : Setting) : Prop where
  compress : codec.compress = engine.pack setting
  decompress : codec.decompress = engine.unpack

namespace RunsOn

variable
  {Setting : Type} {codec : Codec} {engine : Engine Setting}
  {setting : Setting}

theorem packs
    (h : codec.RunsOn engine setting)
    (hEngine : engine.Packs)
    (attempt : Nat)
    {block : Bytes}
    {room : Nat}
    (hSome : block ≠ [])
    (hSize : block.length ≤ maxBlockSize)
    (hRoom : engine.bound block.length ≤ room) :
    ∃ n,
      (codec.compress attempt block room).report = .ok n ∧
      n ≤ room := by
  rw [h.compress]
  exact hEngine setting attempt block room hSome hSize hRoom

theorem faithfulTo
    (h : codec.RunsOn engine setting)
    (hEngine : engine.Lossless) :
    codec.FaithfulTo maxBlockSize := by
  intro buffer attempt block room length hSize hReport hRoom
  rw [h.compress] at hReport
  rcases
    hEngine setting attempt block room length hSize hReport
      hRoom with ⟨hWritten, hUnpack⟩
  rw [← h.compress] at hWritten hUnpack
  rw [← h.decompress] at hUnpack
  rw [packedIn_of_le buffer hWritten hRoom]
  exact
    { report := congrArg Transfer.report hUnpack
      written :=
        (congrArg (List.take block.length)
          (congrArg Transfer.written hUnpack)).trans
          List.take_length }

end RunsOn

theorem lz4_runsOn
    [engines : Engines] :
    Codec.lz4.RunsOn engines.lz4 () where
  compress := rfl
  decompress := rfl

theorem zstd_runsOn
    [engines : Engines]
    (level : Int) :
    (Codec.zstd level).RunsOn engines.zstd level where
  compress := rfl
  decompress := rfl

end Codec

------------------------------------------------------------
-- Bundled Codecs
------------------------------------------------------------

namespace Bundled

theorem overhead_eq_bound
    [engines : Engines]
    (hEngines : engines.Measured)
    (kind : Bundled)
    (level : Option Int)
    (n : Nat) :
    (kind.codec level).overhead n = kind.bound n - n := by
  cases kind with
  | stored => exact Codec.stored_fits.overhead n
  | lz4 =>
    rw [← hEngines.lz4]
    rfl
  | zstd =>
    rw [← hEngines.zstd]
    rfl

/- What a bundled codec packs can be told in a word. -/
theorem room_lt
    [engines : Engines]
    (hEngines : engines.Measured)
    (kind : Bundled)
    (level : Option Int)
    {blockSize : Nat}
    (hSize : blockSize ≤ maxBlockSize) :
    blockSize + (kind.codec level).overhead blockSize <
      Bytes.wordCount 4 := by
  rw [kind.overhead_eq_bound hEngines,
    Nat.add_sub_cancel' (kind.le_bound blockSize)]
  exact Nat.lt_of_le_of_lt (kind.bound_mono hSize) kind.bound_lt

/- A bundled codec keeps to its bound. -/
theorem fits_codec
    [engines : Engines]
    (hEngines : engines.Roomy)
    (kind : Bundled)
    (level : Option Int) :
    kind.Fits (kind.codec level) where
  overhead := kind.overhead_eq_bound hEngines.toMeasured level
  packs := by
    intro attempt block room hSome hSize hRoom
    cases kind with
    | stored =>
      exact
        Codec.stored_fits.packs attempt block room hSome hSize
          hRoom
    | lz4 =>
      rw [← hEngines.lz4] at hRoom
      exact
        Codec.lz4_runsOn.packs hEngines.lz4_packs attempt hSome
          hSize hRoom
    | zstd =>
      rw [← hEngines.zstd] at hRoom
      exact
        (Codec.zstd_runsOn _).packs hEngines.zstd_packs attempt
          hSome hSize hRoom

/- No bundled codec fails. -/
theorem neverFails
    [engines : Engines]
    (hEngines : engines.Roomy)
    (kind : Bundled)
    (level : Option Int)
    {size : Nat}
    (hSize : size ≤ maxBlockSize) :
    (kind.codec level).NeverFails size :=
  (kind.fits_codec hEngines level).neverFails hSize

/- Every bundled codec unpacks what it makes of a block. -/
theorem faithfulTo
    [engines : Engines]
    (hEngines : engines.Sound)
    (kind : Bundled)
    (level : Option Int) :
    (kind.codec level).FaithfulTo maxBlockSize := by
  cases kind with
  | stored =>
    intro buffer attempt block room length _ hReport hRoom
    exact
      Codec.stored_faithful buffer attempt block room length
        hReport hRoom
  | lz4 =>
    exact Codec.lz4_runsOn.faithfulTo hEngines.lz4_lossless
  | zstd =>
    exact
      (Codec.zstd_runsOn _).faithfulTo hEngines.zstd_lossless

/- The level of a codec is of no account for unpacking. -/
theorem decompress_codec
    [Engines]
    (kind : Bundled)
    (level other : Option Int) :
    (kind.codec level).decompress =
      (kind.codec other).decompress := by
  cases kind <;> rfl

theorem overhead_codec
    [Engines]
    (kind : Bundled)
    (level other : Option Int) :
    (kind.codec level).overhead = (kind.codec other).overhead := by
  cases kind <;> rfl

theorem method_codec
    [Engines]
    (kind : Bundled)
    (level : Option Int) :
    (kind.codec level).method = kind.method := by
  cases kind <;> rfl

/- A codec is found by the byte that names it. -/
theorem codecOfMethod_method
    [Engines]
    (kind : Bundled) :
    codecOfMethod kind.method = .ok (kind.codec none) := by
  cases kind <;> rfl

end Bundled

end SplitStream
