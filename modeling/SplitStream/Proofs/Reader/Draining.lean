import SplitStream.Proofs.Reader.Serving

/-
  Draining of readers. What a reader delivers is collected
  whole: the loop has rounds enough, drops nothing, and hands
  back the reader that the last call for a frame has left.

  Main declarations:
    * `FrameReader.Empties`
    * `FrameReader.Delivers.exists_empties`
    * `FrameReader.Orderly.drain_of_empties`
    * `ContainerReader.frames_of_empties`
-/

------------------------------------------------------------
-- Emptied Readers
------------------------------------------------------------

namespace SplitStream

namespace FrameReader

variable {ρ : Type} [FrameReader ρ]

/-
  What a reader delivers, the failure that stops it, and the
  reader that is left when it has stopped.
-/
inductive Empties :
    ρ → List Bytes → Option Error → ρ → Prop where
  | ended {reader last : ρ} :
      readFrame.perform reader = (.ok false, last) →
        Empties reader [] none last
  | failed {reader last : ρ} {e : Error} :
      readFrame.perform reader = (.error e, last) →
        Empties reader [] (some e) last
  | frame {reader next last : ρ} {blocks : List Bytes}
      {failure : Option Error} :
      readFrame.perform reader = (.ok true, next) →
        Empties next blocks failure last →
          Empties reader ((staging next).ready :: blocks)
            failure last

/- A reader that delivers is left in some state. -/
theorem Delivers.exists_empties
    {reader : ρ}
    {blocks : List Bytes}
    {failure : Option Error}
    (h : Delivers reader blocks failure) :
    ∃ last, Empties reader blocks failure last := by
  induction h with
  | ended hRead => exact ⟨_, .ended hRead⟩
  | failed hRead => exact ⟨_, .failed hRead⟩
  | frame hRead _ ih =>
    rcases ih with ⟨last, hRest⟩
    exact ⟨last, .frame hRead hRest⟩

namespace Empties

variable
  {reader other last : ρ} {blocks : List Bytes}
  {failure : Option Error}

/- Only the first call sees the reader itself. -/
theorem of_same
    (h : Empties reader blocks failure last)
    (hSame :
      readFrame.perform other = readFrame.perform reader) :
    Empties other blocks failure last := by
  cases h with
  | ended hRead => exact .ended (hSame.trans hRead)
  | failed hRead => exact .failed (hSame.trans hRead)
  | frame hRead hRest => exact .frame (hSame.trans hRead) hRest

end Empties

------------------------------------------------------------
-- Draining
------------------------------------------------------------

namespace Orderly

variable
  {AtEnd : ρ → Prop} {reader last : ρ} {blocks : List Bytes}
  {failure : Option Error}

/-
  A round for each byte and one for the end are enough. The
  loop drops what is ready before it asks for a frame, as the
  call does itself.
-/
theorem drainRounds_of_empties
    (hOrderly : Orderly AtEnd)
    (h : Empties reader blocks failure last)
    (n : Nat)
    (got : Tape)
    (hRounds : (source reader).remaining < n) :
    ∃ bytes,
      drainRounds n reader got = ⟨bytes, failure, last⟩ ∧
      bytes.toBytes = got.toBytes ++ blocks.flatten := by
  cases n with
  | zero => exact absurd hRounds (Nat.not_lt_zero _)
  | succ n =>
    induction h generalizing n got with
    | ended hRead =>
      refine ⟨got, drainRounds_of_ended n got hRead, ?_⟩
      rw [List.flatten_nil, List.append_nil]
    | failed hRead =>
      refine ⟨got, ?_, ?_⟩
      · rw [drainRounds, hRead]
      · rw [List.flatten_nil, List.append_nil]
    | @frame reader next last blocks failure hRead _ ih =>
      have hLess := hOrderly.onward reader next hRead
      have hSame :
          readFrame.perform (cleared next) =
            readFrame.perform next :=
        hOrderly.readFrame_withStaging _ next rfl
      obtain ⟨m, rfl⟩ : ∃ m, n = m + 1 :=
        Nat.exists_eq_succ_of_ne_zero (by omega)
      rcases ih (got.append (staging next).ready) m (by omega)
        with ⟨bytes, hDrain, hBytes⟩
      refine ⟨bytes, ?_, ?_⟩
      · rw [drainRounds_of_frame _ got hRead, ← hDrain,
          drainRounds, drainRounds, hSame]
      · rw [hBytes, Tape.toBytes_append, List.flatten_cons,
          List.append_assoc]

theorem drain_of_empties
    (hOrderly : Orderly AtEnd)
    (h : Empties reader blocks failure last) :
    ∃ bytes,
      drain reader = ⟨bytes, failure, last⟩ ∧
      bytes.toBytes = blocks.flatten :=
  hOrderly.drainRounds_of_empties h _ .empty
    (Nat.lt_succ_self _)

end Orderly

end FrameReader

------------------------------------------------------------
-- Containers
------------------------------------------------------------

namespace ContainerReader

open FrameReader

/- Every block that is delivered counts as a frame. -/
theorem frames_of_empties
    {reader last : ContainerReader}
    {blocks : List Bytes}
    {failure : Option Error}
    (h : Empties reader blocks failure last) :
    last.frames = reader.frames + blocks.length := by
  induction h with
  | @ended reader last hRead =>
    have hFinds := finds_of_readFrame reader
    change readFrame.perform reader = _ at hRead
    rw [hRead] at hFinds
    cases hFinds with
    | ended hGoes _ => exact hGoes.frames
  | @failed reader last e hRead =>
    have hFinds := finds_of_readFrame reader
    change readFrame.perform reader = _ at hRead
    rw [hRead] at hFinds
    cases hFinds with
    | failed _ hGoes => exact hGoes.frames
  | @frame reader next last blocks failure hRead _ ih =>
    have hFinds := finds_of_readFrame reader
    change readFrame.perform reader = _ at hRead
    rw [hRead] at hFinds
    cases hFinds with
    | frame _ hGoes _ =>
      have hSame := hGoes.frames
      rw [ih, List.length_cons]
      change _ = reader.frames + _
      change _ = reader.frames at hSame
      dsimp only
      omega

end ContainerReader

end SplitStream
