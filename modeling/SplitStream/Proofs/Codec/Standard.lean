import SplitStream.Proofs.Codec.Bundled
import SplitStream.Proofs.Codec.Lz4
import SplitStream.Proofs.Codec.Zstd

/-
  The standard engines do all that codecs rely on: they ask
  for the room that their formats are known to need, pack
  every block in it, and unpack what they have made.

  Main declarations:
    * `Engine.lossless_of_packs`
    * `Engines.standard_sound`
-/

------------------------------------------------------------
-- Engines As Functions
------------------------------------------------------------

namespace SplitStream

/-
  An engine that packs each block in one way, and reports what
  it has written, need only unpack it.
-/
theorem Engine.lossless_of_packs
    {Setting : Type}
    {engine : Engine Setting}
    {packed : Bytes → Bytes}
    (hPacks :
      ∀ setting attempt block room length,
        (engine.pack setting attempt block room).report =
            .ok length →
          engine.pack setting attempt block room =
            .success (packed block))
    (hUnpacks :
      ∀ block,
        block.length ≤ maxBlockSize →
          engine.unpack (packed block) block.length =
            .success block) :
    engine.Lossless := by
  intro setting attempt block room length hSize hReport _
  have hPack := hPacks setting attempt block room length hReport
  rw [hPack] at hReport ⊢
  have hLength :=
    Transfer.honest_success (packed block) length hReport
  dsimp only [Transfer.success] at hLength ⊢
  refine ⟨Nat.le_of_eq hLength.symm, ?_⟩
  rw [← hLength, List.take_length]
  exact hUnpacks block hSize

------------------------------------------------------------
-- LZ4
------------------------------------------------------------

namespace Lz4

theorem engine_packs : engine.Packs := by
  intro setting attempt block room _ _ hRoom
  have hBound : bound block.length ≤ room := hRoom
  refine
    ⟨(pack block).length, ?_,
      Nat.le_trans (length_pack_le block) hBound⟩
  change (compress block room).report = _
  rw [compress, if_neg (Nat.not_lt.mpr hBound)]
  rfl

theorem engine_lossless : engine.Lossless := by
  apply Engine.lossless_of_packs
  · intro setting attempt block room length hReport
    change (compress block room).report = _ at hReport
    change compress block room = _
    unfold compress at hReport ⊢
    split at hReport
    · cases hReport
    · rename_i hRoom
      rw [if_neg hRoom]
  · intro block _
    exact decode_pack block

end Lz4

------------------------------------------------------------
-- Zstandard
------------------------------------------------------------

namespace Zstd

theorem engine_packs : engine.Packs := by
  intro setting attempt block room _ _ hRoom
  have hLength := Nat.le_trans (length_encode_le block) hRoom
  refine ⟨(encode block).length, ?_, hLength⟩
  change (compress block room).report = _
  simp only [compress, if_pos hLength]
  rfl

theorem engine_lossless : engine.Lossless := by
  apply Engine.lossless_of_packs
  · intro setting attempt block room length hReport
    change (compress block room).report = _ at hReport
    change compress block room = _
    unfold compress at hReport ⊢
    dsimp only at hReport ⊢
    split at hReport
    · rename_i hRoom
      rw [if_pos hRoom]
    · cases hReport
  · intro block hSize
    exact decode_encode (Nat.lt_of_le_of_lt hSize (by decide))

end Zstd

------------------------------------------------------------
-- Standard Engines
------------------------------------------------------------

theorem Engines.standard_sound :
    Engines.standard.Sound where
  lz4 := fun _ => rfl
  zstd := fun _ => rfl
  lz4_packs := Lz4.engine_packs
  zstd_packs := Zstd.engine_packs
  lz4_lossless := Lz4.engine_lossless
  zstd_lossless := Zstd.engine_lossless

end SplitStream
