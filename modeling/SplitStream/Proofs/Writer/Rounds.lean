import SplitStream.Proofs.Writer.Regrouping

/-
  Writes in rounds. As long as the bytes held and the bytes
  offered complete a block, that block is packed and handed
  to the emission, and the other bytes are taken after it;
  what does not complete a block is held.

  Main declarations:
    * `Regrouper.Packs`
    * `Regrouper.exists_packs`
    * `Regrouper.Completes`
    * `Regrouper.writeFrom_of_lacking`
    * `Regrouper.writeFrom_of_packs`
    * `Regrouper.writeFrom_of_completes`
    * `Regrouper.rounds`
-/

------------------------------------------------------------
-- Packing
------------------------------------------------------------

namespace SplitStream

namespace Regrouper

/- The regrouper whose codec has been handed a block. -/
def spent
    (regrouper : Regrouper)
    (block : Bytes) : Regrouper :=
  let transfer :=
    regrouper.codec.compress regrouper.attempts block
      regrouper.room
  { regrouper with
    output :=
      regrouper.output.overwrite
        (transfer.written.take regrouper.room)
    attempts := regrouper.attempts + 1 }

theorem kin_spent
    (regrouper : Regrouper)
    (block : Bytes) :
    regrouper.Kin (regrouper.spent block) :=
  ⟨rfl, rfl⟩

@[simp]
theorem held_spent
    (regrouper : Regrouper)
    (block : Bytes) :
    (regrouper.spent block).held = regrouper.held :=
  rfl

@[simp]
theorem attempts_spent
    (regrouper : Regrouper)
    (block : Bytes) :
    (regrouper.spent block).attempts = regrouper.attempts + 1 :=
  rfl

/-
  What comes of packing a block: packed bytes that lie in the
  buffer, or a refusal by the codec or of its report. Every
  emission is handed the packed bytes alike.
-/
structure Packs
    (regrouper : Regrouper)
    (block : Bytes)
    (outcome : Except Error Bytes) : Prop where
  makes :
    ∀ packed,
      outcome = .ok packed → regrouper.Makes ⟨block, packed⟩
  refuses :
    ∀ e,
      outcome = .error e → Refuses (fun _ => False) e
  compress :
    ∀ {σ : Type} (emit : Emission σ) (s : σ),
      regrouper.compressBlock emit block s =
        (((ofExcept outcome >>= emit block).perform s).1,
          regrouper.spent block,
          ((ofExcept outcome >>= emit block).perform s).2)

theorem exists_packs
    (regrouper : Regrouper)
    (block : Bytes) :
    ∃ outcome, regrouper.Packs block outcome := by
  let transfer :=
    regrouper.codec.compress regrouper.attempts block
      regrouper.room
  cases hReport : transfer.report with
  | error status =>
    let e : Error :=
      .codec status (regrouper.codec.describe status)
    refine ⟨.error e, by simp, ?_, ?_⟩
    · intro e' hError
      cases hError
      exact .codec status (regrouper.codec.describe status)
    · intro σ emit s
      simp only [compressBlock, transfer] at hReport ⊢
      rw [hReport]
      rfl
  | ok length =>
    by_cases hRoom : regrouper.room < length
    · let e : Error :=
        .misuse
          (.overlongReport regrouper.codec.name length
            regrouper.room)
      refine ⟨.error e, by simp, ?_, ?_⟩
      · intro e' hError
        cases hError
        exact .overlong regrouper.codec.name length regrouper.room
      · intro σ emit s
        simp only [compressBlock, transfer] at hReport ⊢
        rw [hReport]
        simp only [if_pos hRoom]
        rfl
    · refine
        ⟨.ok ((regrouper.spent block).output.front length), ?_,
          by simp, ?_⟩
      · intro packed hOk
        cases hOk
        exact
          ⟨regrouper.output, regrouper.attempts, length, hReport,
            Nat.not_lt.mp hRoom, rfl⟩
      · intro σ emit s
        simp only [compressBlock, transfer] at hReport ⊢
        rw [hReport]
        simp only [if_neg hRoom]
        rfl

------------------------------------------------------------
-- Rounds
------------------------------------------------------------

/- The number of bytes that the held block is short of. -/
def missing
    (regrouper : Regrouper) : Nat :=
  regrouper.blockSize - regrouper.held.size

/- There are bytes, and they complete the held block. -/
structure Completes
    (regrouper : Regrouper)
    (data : Bytes) : Prop where
  some : data ≠ []
  missing_le : regrouper.missing ≤ data.length

/- The block that is completed. -/
def completed
    (regrouper : Regrouper)
    (data : Bytes) : Bytes :=
  regrouper.held.toBytes ++ data.take regrouper.missing

/-
  The regrouper while a completed block is emitted: the block
  is held, unless nothing was held before.
-/
def offering
    (regrouper : Regrouper)
    (data : Bytes) : Regrouper :=
  if regrouper.held.size = 0 then
    regrouper
  else
    regrouper.holding (data.take regrouper.missing)

theorem offering_of_none
    {regrouper : Regrouper}
    (data : Bytes)
    (hHeld : regrouper.held.size = 0) :
    regrouper.offering data = regrouper :=
  if_pos hHeld

theorem offering_of_some
    {regrouper : Regrouper}
    (data : Bytes)
    (hHeld : regrouper.held.size ≠ 0) :
    regrouper.offering data =
      regrouper.holding (data.take regrouper.missing) :=
  if_neg hHeld

theorem kin_offering
    (regrouper : Regrouper)
    (data : Bytes) :
    regrouper.Kin (regrouper.offering data) := by
  unfold offering
  split
  · exact ⟨rfl, rfl⟩
  · exact ⟨rfl, rfl⟩

theorem attempts_offering
    (regrouper : Regrouper)
    (data : Bytes) :
    (regrouper.offering data).attempts = regrouper.attempts := by
  unfold offering
  split
  · rfl
  · rfl

/- The regrouper after an attempt at the completed block. -/
def tried
    (regrouper : Regrouper)
    (data : Bytes) : Regrouper :=
  (regrouper.offering data).spent (regrouper.completed data)

theorem kin_tried
    (regrouper : Regrouper)
    (data : Bytes) :
    regrouper.Kin (regrouper.tried data) :=
  (regrouper.kin_offering data).trans (kin_spent _ _)

theorem kin_emptied
    (regrouper : Regrouper) :
    regrouper.Kin regrouper.emptied :=
  ⟨rfl, rfl⟩

@[simp]
theorem attempts_tried
    (regrouper : Regrouper)
    (data : Bytes) :
    (regrouper.tried data).attempts = regrouper.attempts + 1 := by
  rw [tried, attempts_spent, attempts_offering]

/- What is offered while it is held is the completed block. -/
theorem held_offering
    {regrouper : Regrouper}
    (data : Bytes)
    (hHeld : regrouper.held.size ≠ 0) :
    (regrouper.offering data).held.toBytes =
      regrouper.completed data := by
  rw [offering_of_some data hHeld]
  exact Tape.toBytes_append _ _

/- A completed block is full. -/
theorem Completes.length
    {regrouper : Regrouper}
    {data : Bytes}
    (h : regrouper.Completes data)
    (hLe : regrouper.held.size ≤ regrouper.blockSize) :
    (regrouper.completed data).length = regrouper.blockSize := by
  have hMissing := h.missing_le
  unfold missing at hMissing
  rw [completed, List.length_append, List.length_take,
    ← Tape.size_eq_length, missing, Nat.min_eq_left hMissing]
  omega

theorem emptied_of_held
    {regrouper : Regrouper}
    (hHeld : regrouper.held.size = 0) :
    regrouper.emptied = regrouper := by
  rcases regrouper with ⟨_, _, _, ⟨lastFirst, size, hSize⟩, _, _⟩
  have hZero : size = 0 := hHeld
  subst hZero
  have hNil : lastFirst = [] :=
    List.length_eq_zero_iff.mp hSize.symm
  subst hNil
  rfl

theorem holding_nil
    (regrouper : Regrouper) :
    regrouper.holding [] = regrouper :=
  rfl

variable {σ : Type}

/- What does not complete a block is held. -/
theorem writeFrom_of_lacking
    (emit : Emission σ)
    {regrouper : Regrouper}
    {data : Bytes}
    (hLacking : ¬ regrouper.Completes data)
    (s : σ) :
    writeFrom emit data regrouper s =
      (.ok (), regrouper.holding data, s) := by
  cases data with
  | nil =>
    rw [writeFrom, holding_nil]
  | cons b rest =>
    have hShort : (b :: rest).length < regrouper.missing := by
      rw [← Nat.not_le]
      intro hMissing
      exact hLacking ⟨List.cons_ne_nil _ _, hMissing⟩
    rw [missing] at hShort
    rw [writeFrom,
      List.take_of_length_le (Nat.le_of_lt hShort),
      if_pos hShort]
    rfl

/- A completed block goes first, and the other bytes follow. -/
theorem writeFrom_of_block
    (emit : Emission σ)
    {regrouper : Regrouper}
    {data : Bytes}
    (hCompletes : regrouper.Completes data)
    (s : σ) :
    writeFrom emit data regrouper s =
      match (regrouper.offering data).compressBlock emit
          (regrouper.completed data) s with
      | (.error e, next, t) => (.error e, next, t)
      | (.ok (), next, t) =>
          writeFrom emit (data.drop regrouper.missing)
            next.emptied t := by
  by_cases hHeld : regrouper.held.size = 0
  · have hMissing : regrouper.missing = regrouper.blockSize := by
      rw [missing, hHeld, Nat.sub_zero]
    have hFull := hCompletes.missing_le
    rw [hMissing] at hFull
    rcases exists_packs regrouper
      (data.take regrouper.blockSize) with ⟨outcome, hPacks⟩
    have hEmptied :
        (regrouper.spent (data.take regrouper.blockSize)).emptied =
          regrouper.spent (data.take regrouper.blockSize) :=
      emptied_of_held hHeld
    rw [writeFrom_of_straight hHeld hFull,
      offering_of_none data hHeld, completed,
      Tape.toBytes_eq_nil hHeld, hMissing, List.nil_append,
      hPacks.compress]
    rcases (ofExcept outcome >>= emit _).perform s with
      ⟨_ | _, _⟩
    · rfl
    · simp only [hEmptied]
  · rw [writeFrom_of_held hCompletes.some hHeld
        hCompletes.missing_le, ← held_offering data hHeld,
      offering_of_some data hHeld]
    rfl

/- What comes of packing a completed block decides on a write. -/
theorem writeFrom_of_packs
    {regrouper : Regrouper}
    {data : Bytes}
    {outcome : Except Error Bytes}
    (hCompletes : regrouper.Completes data)
    (hPacks :
      (regrouper.offering data).Packs (regrouper.completed data)
        outcome)
    (emit : Emission σ)
    (s : σ) :
    writeFrom emit data regrouper s =
      match (ofExcept outcome >>=
          emit (regrouper.completed data)).perform s with
      | (.error e, t) => (.error e, regrouper.tried data, t)
      | (.ok (), t) =>
          writeFrom emit (data.drop regrouper.missing)
            (regrouper.tried data).emptied t := by
  rw [writeFrom_of_block emit hCompletes, hPacks.compress]
  rcases (ofExcept outcome >>= emit _).perform s with
    ⟨_ | _, _⟩
  · rfl
  · rfl

/-
  The packing of a completed block is the same for every
  emission, and decides on what the emission is handed.
-/
theorem writeFrom_of_completes
    {regrouper : Regrouper}
    {data : Bytes}
    (hCompletes : regrouper.Completes data) :
    let block := regrouper.completed data
    let tried := regrouper.tried data
    ∃ outcome,
      (regrouper.offering data).Packs block outcome ∧
      ∀ {σ : Type} (emit : Emission σ) (s : σ),
        writeFrom emit data regrouper s =
          match (ofExcept outcome >>= emit block).perform s with
          | (.error e, t) => (.error e, tried, t)
          | (.ok (), t) =>
              writeFrom emit (data.drop regrouper.missing)
                tried.emptied t := by
  intro block tried
  rcases exists_packs (regrouper.offering data) block with
    ⟨outcome, hPacks⟩
  exact ⟨outcome, hPacks, writeFrom_of_packs hCompletes hPacks⟩

/-
  Induction on the rounds of a write. A round that takes no
  bytes empties what was held.
-/
theorem rounds
    {Holds : Bytes → Regrouper → Prop}
    (hLacking :
      ∀ data regrouper,
        ¬ regrouper.Completes data → Holds data regrouper)
    (hCompletes :
      ∀ data regrouper,
        regrouper.Completes data →
        (∀ next,
          regrouper.Kin next →
          next.held.size = 0 →
            Holds (data.drop regrouper.missing) next) →
          Holds data regrouper)
    (data : Bytes)
    (regrouper : Regrouper) :
    Holds data regrouper := by
  induction hRounds :
      2 * data.length + (if regrouper.held.size = 0 then 0 else 1)
    using Nat.strongRecOn generalizing data regrouper
  rename_i rounds ih
  by_cases hBlock : regrouper.Completes data
  · apply hCompletes data regrouper hBlock
    intro next hKin hNone
    apply ih _ _ _ next rfl
    have hPos := regrouper.blockSize_pos
    have hData : 0 < data.length :=
      List.length_pos_iff.mpr hBlock.some
    rw [← hRounds, if_pos hNone, List.length_drop, missing]
    by_cases hHeld : regrouper.held.size = 0
    · rw [if_pos hHeld, hHeld]
      omega
    · rw [if_neg hHeld]
      omega
  · exact hLacking data regrouper hBlock

/- What is held is flushed as a block, if there is any. -/
theorem flush_of_none
    (emit : Emission σ)
    {regrouper : Regrouper}
    (hHeld : regrouper.held.size = 0)
    (s : σ) :
    (flush emit).perform (regrouper, s) =
      (.ok (), regrouper, s) := by
  rw [flush, Step.perform_ofStep]
  exact if_pos hHeld

/- What comes of packing the held block decides on a flush. -/
theorem flush_of_packs
    {regrouper : Regrouper}
    {outcome : Except Error Bytes}
    (hHeld : regrouper.held.size ≠ 0)
    (hPacks : regrouper.Packs regrouper.held.toBytes outcome)
    (emit : Emission σ)
    (s : σ) :
    (flush emit).perform (regrouper, s) =
      match (ofExcept outcome >>=
          emit regrouper.held.toBytes).perform s with
      | (.error e, t) =>
          (.error e, regrouper.spent regrouper.held.toBytes, t)
      | (.ok (), t) =>
          (.ok (),
            (regrouper.spent regrouper.held.toBytes).emptied,
            t) := by
  rw [flush, Step.perform_ofStep]
  simp only [if_neg hHeld]
  rw [hPacks.compress]
  rcases (ofExcept outcome >>= emit _).perform s with
    ⟨_ | _, _⟩
  · rfl
  · rfl

theorem flush_of_some
    {regrouper : Regrouper}
    (hHeld : regrouper.held.size ≠ 0) :
    let block := regrouper.held.toBytes
    let spent := regrouper.spent block
    ∃ outcome,
      regrouper.Packs block outcome ∧
      ∀ {σ : Type} (emit : Emission σ) (s : σ),
        (flush emit).perform (regrouper, s) =
          match (ofExcept outcome >>= emit block).perform s with
          | (.error e, t) => (.error e, spent, t)
          | (.ok (), t) => (.ok (), spent.emptied, t) := by
  intro block spent
  rcases exists_packs regrouper block with ⟨outcome, hPacks⟩
  exact ⟨outcome, hPacks, flush_of_packs hHeld hPacks⟩

end Regrouper

end SplitStream
