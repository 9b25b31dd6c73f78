import SplitStream.Proofs.Writer.Simulation

/-
  Regroupers that have been used, beside fresh ones. What a
  codec reports it has written, so nothing that earlier blocks
  have left in the buffer gets into a later one; and a codec
  that counts its blocks goes on counting. A used regrouper
  and a fresh one that hold the same bytes are twins.

  Main declarations:
    * `Codec.after`
    * `Codec.after_of_steady`
    * `Codec.WritesReported`
    * `Regrouper.Resumes`
    * `Regrouper.Resumes.compressBlock`
    * `Regrouper.tandem_resumes`
    * `Regrouper.resumes_of_reset`
-/

------------------------------------------------------------
-- Codecs That Have Been Used
------------------------------------------------------------

namespace SplitStream

namespace Codec

/- The codec in the state that a number of blocks leaves. -/
def after
    (codec : Codec)
    (attempts : Nat) : Codec :=
  { codec with
    compress := fun attempt =>
      codec.compress (attempts + attempt) }

/- A codec without a state is not changed by being used. -/
theorem after_of_steady
    {codec : Codec}
    (hSteady : codec.Steady)
    (attempts : Nat) :
    codec.after attempts = codec := by
  have hCompress :
      (fun attempt => codec.compress (attempts + attempt)) =
        codec.compress := by
    funext attempt block room
    exact hSteady _ _ block room
  unfold after
  rw [hCompress]

/- A length that is reported and has room has been written. -/
def WritesReported
    (codec : Codec) : Prop :=
  ∀ attempt block room n,
    (codec.compress attempt block room).report = .ok n →
    n ≤ room →
      n ≤ (codec.compress attempt block room).written.length

/- An honest codec has written what it reports. -/
theorem writesReported_of_honest
    {codec : Codec}
    (hHonest :
      ∀ attempt block room,
        (codec.compress attempt block room).Honest) :
    codec.WritesReported := by
  intro attempt block room n hReport _
  exact Nat.le_of_eq (hHonest attempt block room n hReport).symm

/- The codec reports more bytes than it has written. -/
def overstating
    (codec : Codec)
    (more : Nat) : Codec :=
  { codec with
    compress := fun attempt block room =>
      let transfer := codec.compress attempt block room
      { transfer with report := transfer.report.map (· + more) } }

end Codec

------------------------------------------------------------
-- Regroupers That Have Been Used
------------------------------------------------------------

namespace Regrouper

/-
  A used regrouper and a fresh one hold the same bytes, and
  the codec of the fresh one is in the state that the used one
  has left it in. Their buffers may differ.
-/
structure Resumes
    (attempts : Nat)
    (used fresh : Regrouper) : Prop where
  reported : used.codec.WritesReported
  codec : fresh.codec = used.codec.after attempts
  blockSize : fresh.blockSize = used.blockSize
  held : fresh.held = used.held
  attempts : used.attempts = attempts + fresh.attempts

variable {attempts : Nat} {used fresh : Regrouper} {σ : Type}

theorem Resumes.room
    (h : used.Resumes attempts fresh) :
    fresh.room = used.room := by
  rw [Regrouper.room, Regrouper.room, h.codec, h.blockSize]
  rfl

theorem Resumes.compress
    (h : used.Resumes attempts fresh)
    (block : Bytes)
    (room : Nat) :
    fresh.codec.compress fresh.attempts block room =
      used.codec.compress used.attempts block room := by
  rw [h.codec, h.attempts]
  rfl

/- The emission of either one is handed the same bytes. -/
theorem Resumes.compressBlock
    (h : used.Resumes attempts fresh)
    (emit : Emission σ)
    (block : Bytes)
    (s : σ) :
    used.compressBlock emit block s =
      ((fresh.compressBlock emit block s).1,
        used.spent block,
        (fresh.compressBlock emit block s).2.2) := by
  have hDescribe : fresh.codec.describe = used.codec.describe := by
    rw [h.codec]
    rfl
  have hName : fresh.codec.name = used.codec.name := by
    rw [h.codec]
    rfl
  unfold Regrouper.compressBlock
  rw [h.room]
  dsimp only
  rw [h.compress, hDescribe, hName]
  cases hReport :
      (used.codec.compress used.attempts block
        used.room).report with
  | error status => rfl
  | ok n =>
    by_cases hRoom : used.room < n
    · simp only [if_pos hRoom]
      rfl
    · have hWritten :=
        h.reported _ _ _ n hReport (Nat.not_lt.mp hRoom)
      have hLength :
          n ≤
            ((used.codec.compress used.attempts block
              used.room).written.take used.room).length := by
        rw [List.length_take]
        omega
      simp only [if_neg hRoom,
        Scratch.front_overwrite_of_le _ hLength]
      rfl

theorem Resumes.packs
    (h : used.Resumes attempts fresh)
    {block : Bytes}
    {outcome : Except Error Bytes}
    (hPacks : fresh.Packs block outcome) :
    used.Packs block outcome where
  makes := by
    intro packed hPacked
    rcases hPacks.makes packed hPacked with
      ⟨buffer, attempt, length, hReport, hRoom, hMade⟩
    rw [h.room, h.codec] at hReport hMade
    rw [h.room] at hRoom
    exact
      ⟨buffer, attempts + attempt, length, hReport, hRoom, hMade⟩
  refuses := hPacks.refuses
  compress := by
    intro σ emit s
    rw [h.compressBlock, hPacks.compress]

/- A used regrouper and a fresh one are twins. -/
theorem tandem_resumes
    (attempts : Nat) :
    Tandem (Resumes attempts) where
  blockSize := fun hTwin => hTwin.blockSize
  held := fun hTwin => hTwin.held
  packs := fun hTwin _ _ hPacks => hTwin.packs hPacks
  holding := by
    intro used fresh hTwin bs
    have hHeld :
        (fresh.holding bs).held = (used.holding bs).held := by
      rw [holding, holding, hTwin.held]
    exact { hTwin with held := hHeld }
  spent := by
    intro used fresh hTwin block
    have hAttempts :
        (used.spent block).attempts =
          attempts + (fresh.spent block).attempts := by
      rw [attempts_spent, attempts_spent, hTwin.attempts,
        Nat.add_assoc]
    exact { hTwin with attempts := hAttempts }
  emptied := fun hTwin => { hTwin with held := rfl }

/- A regrouper that is reset resumes like a fresh one. -/
theorem resumes_of_reset
    (hReported : used.codec.WritesReported)
    (hNew :
      new (used.codec.after used.attempts) used.blockSize =
        .ok fresh) :
    used.reset.Resumes used.attempts fresh := by
  unfold new at hNew
  split at hNew
  · cases hNew
    exact ⟨hReported, rfl, rfl, rfl, rfl⟩
  · cases hNew

end Regrouper

end SplitStream
