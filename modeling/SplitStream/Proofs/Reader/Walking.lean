import SplitStream.Proofs.Reader.Rounds
import SplitStream.Reader.Raw

/-
  Readers that are asked for one frame after another, until
  there is none or until one fails. A walk follows the rounds
  of such a reader and tells at which position each frame
  began.

  Main declarations:
    * `FrameReader.Delivers`
    * `FrameReader.Walks`
    * `FrameReader.Traverses`
    * `ContainerReader.exists_walk`
    * `ContainerReader.delivers_iff_walks`
-/

------------------------------------------------------------
-- Deliveries And Walks
------------------------------------------------------------

namespace SplitStream

namespace FrameReader

variable {ρ : Type} [FrameReader ρ]

/-
  What a reader delivers, frame by frame, and the failure
  that stops it, if there is one.
-/
inductive Delivers : ρ → List Bytes → Option Error → Prop where
  | ended {reader next : ρ} :
      readFrame.perform reader = (.ok false, next) →
        Delivers reader [] none
  | failed {reader next : ρ} {e : Error} :
      readFrame.perform reader = (.error e, next) →
        Delivers reader [] (some e)
  | frame {reader next : ρ} {blocks : List Bytes}
      {failure : Option Error} :
      readFrame.perform reader = (.ok true, next) →
        Delivers next blocks failure →
          Delivers reader ((staging next).ready :: blocks)
            failure

/- A reader delivers in one way only. -/
theorem Delivers.unique
    {reader : ρ}
    {blocks others : List Bytes}
    {failure other : Option Error}
    (h : Delivers reader blocks failure)
    (hOther : Delivers reader others other) :
    blocks = others ∧ failure = other := by
  induction h generalizing others other with
  | ended hRead =>
    cases hOther with
    | ended _ => exact ⟨rfl, rfl⟩
    | failed hAgain => cases hRead.symm.trans hAgain
    | frame hAgain _ => cases hRead.symm.trans hAgain
  | failed hRead =>
    cases hOther with
    | ended hAgain => cases hRead.symm.trans hAgain
    | failed hAgain =>
      cases hRead.symm.trans hAgain
      exact ⟨rfl, rfl⟩
    | frame hAgain _ => cases hRead.symm.trans hAgain
  | frame hRead _ ih =>
    cases hOther with
    | ended hAgain => cases hRead.symm.trans hAgain
    | failed hAgain => cases hRead.symm.trans hAgain
    | frame hAgain hRest =>
      cases hRead.symm.trans hAgain
      rcases ih hRest with ⟨rfl, rfl⟩
      exact ⟨rfl, rfl⟩

/- A reader without bytes that are ready. -/
def cleared
    (reader : ρ) : ρ :=
  withStaging (staging reader).clear reader

/- Nothing is collected behind the last frame. -/
theorem drainRounds_of_ended
    {reader next : ρ}
    (n : Nat)
    (got : Tape)
    (hRead : readFrame.perform reader = (.ok false, next)) :
    drainRounds (n + 1) reader got = ⟨got, none, next⟩ := by
  rw [drainRounds, hRead]

/- The bytes of a frame are added to what is collected. -/
theorem drainRounds_of_frame
    {reader next : ρ}
    (n : Nat)
    (got : Tape)
    (hRead : readFrame.perform reader = (.ok true, next)) :
    drainRounds (n + 1) reader got =
      drainRounds n (cleared next)
        (got.append (staging next).ready) := by
  rw [drainRounds, hRead]
  rfl

/-
  What a reader delivers, round by round: each block beside
  the position of the source at which its frame began.
-/
inductive Walks
    (round : Action ρ Round) :
    ρ → List (Nat × Bytes) → Option Error → Prop where
  | ended {reader next : ρ} :
      round.perform reader = (.ok .ended, next) →
        Walks round reader [] none
  | failed {reader next : ρ} {e : Error} :
      round.perform reader = (.error e, next) →
        Walks round reader [] (some e)
  | member {reader next : ρ} {found : List (Nat × Bytes)}
      {failure : Option Error} :
      round.perform reader = (.ok .member, next) →
        Walks round next found failure →
          Walks round reader found failure
  | frame {reader next : ρ} {found : List (Nat × Bytes)}
      {failure : Option Error} :
      round.perform reader = (.ok .frame, next) →
        Walks round (cleared next) found failure →
          Walks round reader
            (((source reader).position, (staging next).ready) ::
              found)
            failure

/- Two walks of a reader are the same. -/
theorem Walks.unique
    {round : Action ρ Round}
    {reader : ρ}
    {found others : List (Nat × Bytes)}
    {failure other : Option Error}
    (h : Walks round reader found failure)
    (hOther : Walks round reader others other) :
    found = others ∧ failure = other := by
  induction h generalizing others other with
  | ended hRound =>
    cases hOther with
    | ended _ => exact ⟨rfl, rfl⟩
    | failed hAgain => cases hRound.symm.trans hAgain
    | member hAgain _ => cases hRound.symm.trans hAgain
    | frame hAgain _ => cases hRound.symm.trans hAgain
  | failed hRound =>
    cases hOther with
    | ended hAgain => cases hRound.symm.trans hAgain
    | failed hAgain =>
      cases hRound.symm.trans hAgain
      exact ⟨rfl, rfl⟩
    | member hAgain _ => cases hRound.symm.trans hAgain
    | frame hAgain _ => cases hRound.symm.trans hAgain
  | member hRound _ ih =>
    cases hOther with
    | ended hAgain => cases hRound.symm.trans hAgain
    | failed hAgain => cases hRound.symm.trans hAgain
    | member hAgain hRest =>
      cases hRound.symm.trans hAgain
      exact ih hRest
    | frame hAgain _ => cases hRound.symm.trans hAgain
  | frame hRound _ ih =>
    cases hOther with
    | ended hAgain => cases hRound.symm.trans hAgain
    | failed hAgain => cases hRound.symm.trans hAgain
    | member hAgain _ => cases hRound.symm.trans hAgain
    | frame hAgain hRest =>
      cases hRound.symm.trans hAgain
      rcases ih hRest with ⟨rfl, rfl⟩
      exact ⟨rfl, rfl⟩

/-
  A reader comes over frames: it walks from one to the next
  and delivers their blocks.
-/
structure Traverses
    (round : Action ρ Round)
    (reader : ρ)
    (found : List (Nat × Bytes))
    (failure : Option Error) : Prop where
  walks : Walks round (cleared reader) found failure
  delivers : Delivers reader (found.map Prod.snd) failure

end FrameReader

------------------------------------------------------------
-- Readers Of Containers
------------------------------------------------------------

namespace ContainerReader

open FrameReader

/- Members that a reader passes before it finds anything. -/
inductive Passes :
    ContainerReader → ContainerReader → Prop where
  | here (reader : ContainerReader) : Passes reader reader
  | member {reader next last : ContainerReader} :
      round.perform reader = (.ok .member, next) →
        Passes next last →
          Passes reader last

theorem Passes.walks
    {reader last : ContainerReader}
    {found : List (Nat × Bytes)}
    {failure : Option Error}
    (hPasses : Passes reader last)
    (hWalks : Walks round last found failure) :
    Walks round reader found failure := by
  induction hPasses with
  | here _ => exact hWalks
  | member hRound _ ih => exact .member hRound (ih hWalks)

/-
  The loop passes members until a round finds a frame, the
  end, or a failure. It has rounds enough, since each member
  takes bytes from the source.
-/
theorem exists_passes
    (n : Nat)
    (reader : ContainerReader)
    (hReady : reader.Ready)
    (hRounds : reader.source.remaining < n) :
    ∃ last result next,
      Passes reader last ∧
      last.Ready ∧
      last.source.remaining ≤ reader.source.remaining ∧
      round.perform last = (result, next) ∧
      result ≠ .ok .member ∧
      (readFrameRounds n).perform reader =
        (result.map fun found => decide (found = .frame),
          next) := by
  induction n generalizing reader with
  | zero => exact absurd hRounds (Nat.not_lt_zero _)
  | succ n ih =>
    rcases hRound : round.perform reader with ⟨result, next⟩
    have hLoop := perform_readFrameRounds n hRound
    by_cases hMember : result = .ok .member
    · subst hMember
      have hMoves := movesOver_of_round hReady hRound
      rcases hMoves.ready hReady (by simp) with
        ⟨hNext, _, hLess⟩
      rcases ih next hNext (by omega) with
        ⟨last, result, final, hPasses, hLast, hLe, hFinal, hOther,
          hRest⟩
      exact
        ⟨last, result, final, .member hRound hPasses, hLast,
          Nat.le_trans hLe (Nat.le_of_lt hLess), hFinal, hOther,
          hLoop.trans hRest⟩
    · refine
        ⟨reader, result, next, .here reader, hReady,
          Nat.le_refl _, hRound, hMember, ?_⟩
      rw [hLoop]
      rcases result with e | _ | _ | _
      · rfl
      · rfl
      · contradiction
      · rfl

/-
  A reader that is ready delivers blocks until it ends or
  fails, and it does so by walking over their frames.
-/
theorem exists_walk
    (n : Nat)
    (reader : ContainerReader)
    (hReady : reader.Ready)
    (hRest : reader.source.remaining < n) :
    ∃ found failure,
      Traverses round reader found failure := by
  induction n generalizing reader with
  | zero => exact absurd hRest (Nat.not_lt_zero _)
  | succ n ih =>
    have hCleared : Ready (cleared reader) :=
      ⟨hReady.stage, hReady.follow, hReady.fault⟩
    rcases exists_passes (reader.source.remaining + 1)
      (cleared reader) hCleared (Nat.lt_succ_self _) with
      ⟨last, result, next, hPasses, hLast, hLe, hRound, hOther,
        hLoop⟩
    have hRead :
        (FrameReader.readFrame :
          Action ContainerReader Bool).perform reader =
          (result.map fun found => decide (found = .frame),
            next) :=
      hLoop
    rcases result with e | _ | _ | _
    · exact
        ⟨[], some e,
          { walks := hPasses.walks (.failed hRound)
            delivers := .failed hRead }⟩
    · exact
        ⟨[], none,
          { walks := hPasses.walks (.ended hRound)
            delivers := .ended hRead }⟩
    · contradiction
    · have hMoves := movesOver_of_round hLast hRound
      rcases hMoves.ready hLast (by simp) with
        ⟨hNext, _, hLess⟩
      change _ ≤ reader.source.remaining at hLe
      rcases ih next hNext (by omega) with
        ⟨found, failure, hWalks, hDelivers⟩
      exact
        ⟨_, failure,
          { walks := hPasses.walks (.frame hRound hWalks)
            delivers := .frame hRead hDelivers }⟩

/- What a reader delivers are the blocks of its walk. -/
theorem delivers_iff_walks
    {reader : ContainerReader}
    {blocks : List Bytes}
    {failure : Option Error}
    (hReady : reader.Ready) :
    Delivers reader blocks failure ↔
      ∃ found,
        Walks round (cleared reader) found failure ∧
        found.map Prod.snd = blocks := by
  rcases exists_walk _ reader hReady (Nat.lt_succ_self _) with
    ⟨found, other, hWalks, hDelivers⟩
  constructor
  · intro h
    rcases h.unique hDelivers with ⟨rfl, rfl⟩
    exact ⟨found, hWalks, rfl⟩
  · rintro ⟨others, hAgain, rfl⟩
    rcases hAgain.unique hWalks with ⟨rfl, rfl⟩
    exact hDelivers

end ContainerReader

end SplitStream
