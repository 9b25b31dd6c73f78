import SplitStream.Proofs.Codec.Room
import SplitStream.Proofs.Writer.Rounds

/-
  Bytes may be divided among writes. As long as no write
  fails, writing bytes and then others leaves a regrouper and
  what it has emitted as writing all of them at once does:
  what completes a block does not depend on whether its bytes
  were held or taken from the caller.

  With a codec that never fails and an emission that never
  fails, no write fails.

  Main declarations:
    * `Regrouper.writeFrom_ok_iff`
    * `Regrouper.writeFrom_append`
    * `Regrouper.writeFrom_of_neverFails`
    * `Regrouper.flush_of_neverFails`
-/

------------------------------------------------------------
-- Rounds That Succeed
------------------------------------------------------------

namespace SplitStream

namespace Regrouper

variable {σ : Type}

/- What is held has no part in the packing of a block. -/
theorem compressBlock_emptied
    (regrouper : Regrouper)
    (emit : Emission σ)
    (block : Bytes)
    (s : σ) :
    regrouper.emptied.compressBlock emit block s =
      ((regrouper.compressBlock emit block s).1,
        (regrouper.compressBlock emit block s).2.1.emptied,
        (regrouper.compressBlock emit block s).2.2) := by
  have hRoom : regrouper.emptied.room = regrouper.room := rfl
  unfold compressBlock
  rw [hRoom]
  dsimp only [emptied]
  split
  · rfl
  · split
    · rfl
    · rfl

theorem emptied_offering
    (regrouper : Regrouper)
    (data : Bytes) :
    (regrouper.offering data).emptied = regrouper.emptied := by
  unfold offering
  split
  · rfl
  · rfl

/-
  A write that completes a block succeeds if the block is
  emitted and the other bytes are written.
-/
theorem writeFrom_ok_iff
    {emit : Emission σ}
    {regrouper : Regrouper}
    {data : Bytes}
    (hCompletes : regrouper.Completes data)
    (s : σ)
    (final : Regrouper × σ) :
    writeFrom emit data regrouper s = (.ok (), final) ↔
      ∃ t,
        regrouper.emptied.compressBlock emit
            (regrouper.completed data) s =
          (.ok (),
            regrouper.emptied.spent (regrouper.completed data),
            t) ∧
        writeFrom emit (data.drop regrouper.missing)
            (regrouper.emptied.spent (regrouper.completed data))
            t =
          (.ok (), final) := by
  let block := regrouper.completed data
  let spent := regrouper.emptied.spent block
  rcases exists_packs (regrouper.offering data) block with
    ⟨outcome, hPacks⟩
  have hSpent :
      ((regrouper.offering data).spent block).emptied = spent := by
    unfold offering
    split
    · rfl
    · rfl
  have hEmptied :=
    compressBlock_emptied (regrouper.offering data) emit block s
  rw [emptied_offering] at hEmptied
  rw [writeFrom_of_block emit hCompletes, hEmptied,
    hPacks.compress]
  dsimp only
  rw [hSpent]
  rcases (ofExcept outcome >>= emit block).perform s with
    ⟨_ | _, t⟩
  · simp
  · simp [hSpent, spent, block]

------------------------------------------------------------
-- Divided Writes
------------------------------------------------------------

theorem missing_holding
    (regrouper : Regrouper)
    (bs : Bytes) :
    (regrouper.holding bs).missing =
      regrouper.missing - bs.length :=
  Nat.sub_add_eq _ _ _

theorem holding_append
    (regrouper : Regrouper)
    (front back : Bytes) :
    regrouper.holding (front ++ back) =
      (regrouper.holding front).holding back := by
  have hTape :
      regrouper.held.append (front ++ back) =
        (regrouper.held.append front).append back := by
    simp [Tape.append, List.reverseAux_eq, Nat.add_assoc]
  simp only [holding, hTape]

/- The block that held bytes and later ones complete. -/
theorem completed_holding
    {regrouper : Regrouper}
    {front : Bytes}
    (back : Bytes)
    (hShort : front.length < regrouper.missing) :
    (regrouper.holding front).completed back =
      regrouper.completed (front ++ back) := by
  unfold completed
  rw [missing_holding, List.take_append,
    List.take_of_length_le (Nat.le_of_lt hShort), holding,
    Tape.toBytes_append, List.append_assoc]

/-
  Bytes that do not complete a block are held, and later ones
  go on as if they came with them.
-/
theorem writeFrom_append_of_lacking
    {emit : Emission σ}
    {regrouper : Regrouper}
    {front back : Bytes}
    {s : σ}
    {final : Regrouper × σ}
    (hLacking : ¬ regrouper.Completes front)
    (hBack :
      writeFrom emit back (regrouper.holding front) s =
        (.ok (), final)) :
    writeFrom emit (front ++ back) regrouper s =
      (.ok (), final) := by
  by_cases hFront : front = []
  · subst hFront
    exact hBack
  have hShort : front.length < regrouper.missing := by
    rw [← Nat.not_le]
    exact fun hMissing => hLacking ⟨hFront, hMissing⟩
  by_cases hBlock : (regrouper.holding front).Completes back
  · have hAll : regrouper.Completes (front ++ back) := by
      refine ⟨List.append_ne_nil_of_left_ne_nil hFront _, ?_⟩
      have hMissing := hBlock.missing_le
      rw [missing_holding] at hMissing
      rw [List.length_append]
      omega
    have hDrop :
        (front ++ back).drop regrouper.missing =
          back.drop (regrouper.holding front).missing := by
      rw [missing_holding, List.drop_append,
        List.drop_eq_nil_of_le (Nat.le_of_lt hShort),
        List.nil_append]
    rw [writeFrom_ok_iff hBlock, completed_holding back hShort]
      at hBack
    rw [writeFrom_ok_iff hAll, hDrop]
    exact hBack
  · have hNone : ¬ regrouper.Completes (front ++ back) := by
      intro hAll
      have hMissing := hAll.missing_le
      rw [List.length_append] at hMissing
      apply hBlock
      constructor
      · rintro rfl
        rw [List.length_nil] at hMissing
        omega
      · rw [missing_holding]
        omega
    rw [writeFrom_of_lacking emit hBlock] at hBack
    rw [writeFrom_of_lacking emit hNone, holding_append]
    exact hBack

/-
  Two writes that succeed one after the other do what one
  write of all bytes does. The induction is on the rounds of
  the first of them.
-/
theorem writeFrom_append
    {emit : Emission σ}
    {front : Bytes}
    {regrouper : Regrouper}
    {s : σ}
    {middle : Regrouper × σ}
    (hFront :
      writeFrom emit front regrouper s = (.ok (), middle))
    {back : Bytes}
    {final : Regrouper × σ}
    (hBack :
      writeFrom emit back middle.1 middle.2 = (.ok (), final)) :
    writeFrom emit (front ++ back) regrouper s =
      (.ok (), final) := by
  induction front, regrouper using rounds generalizing s with
  | hLacking front regrouper hLacking =>
    rw [writeFrom_of_lacking emit hLacking] at hFront
    cases hFront
    exact writeFrom_append_of_lacking hLacking hBack
  | hCompletes front regrouper hBlock ih =>
    have hMissing := hBlock.missing_le
    have hAll : regrouper.Completes (front ++ back) := by
      refine ⟨List.append_ne_nil_of_left_ne_nil hBlock.some _, ?_⟩
      rw [List.length_append]
      omega
    have hSame :
        regrouper.completed (front ++ back) =
          regrouper.completed front := by
      rw [completed, completed,
        List.take_append_of_le_length hMissing]
    rw [writeFrom_ok_iff hBlock] at hFront
    rcases hFront with ⟨t, hCompress, hRest⟩
    rw [writeFrom_ok_iff hAll, hSame,
      List.drop_append_of_le_length hMissing]
    have hKin :
        regrouper.Kin
          (regrouper.emptied.spent (regrouper.completed front)) :=
      regrouper.kin_emptied.trans (kin_spent _ _)
    exact ⟨t, hCompress, ih _ hKin rfl hRest⟩

end Regrouper

------------------------------------------------------------
-- Codecs That Never Fail
------------------------------------------------------------

namespace Regrouper

variable
  {σ : Type} {emit : Emission σ} {Makes : PackedBlock → Prop}
  {Emitted : List PackedBlock → σ → Prop}
  {regrouper : Regrouper} {contents : List PackedBlock} {s : σ}

theorem Kin.neverFails
    {next : Regrouper}
    (hKin : regrouper.Kin next)
    (hCodec : regrouper.codec.NeverFails regrouper.blockSize) :
    next.codec.NeverFails next.blockSize := by
  rw [hKin.codec, hKin.blockSize]
  exact hCodec

/- A new regrouper holds nothing. -/
theorem of_new
    {codec : Codec}
    {blockSize : Nat}
    (hNew : new codec blockSize = .ok regrouper) :
    regrouper.blockSize = blockSize ∧ regrouper.held.size = 0 := by
  unfold new at hNew
  split at hNew
  · cases hNew
    exact ⟨rfl, rfl⟩
  · cases hNew

/- A block that the codec packs is not refused. -/
theorem Packs.ok_of_neverFails
    {block : Bytes}
    {outcome : Except Error Bytes}
    (h : regrouper.Packs block outcome)
    (hCodec : regrouper.codec.NeverFails regrouper.blockSize)
    (hPos : 0 < block.length)
    (hLe : block.length ≤ regrouper.blockSize) :
    ∃ packed, outcome = .ok packed := by
  cases outcome with
  | ok packed => exact ⟨packed, rfl⟩
  | error e =>
    rcases hCodec regrouper.attempts block
      (List.length_pos_iff.mp hPos) hLe with ⟨n, hReport, hRoom⟩
    change (regrouper.codec.compress _ _ regrouper.room).report =
      _ at hReport
    have hFits : ¬ regrouper.room < n := Nat.not_lt.mpr hRoom
    have hRefused :=
      h.compress (σ := Unit) (fun _ _ => pure ()) ()
    simp only [compressBlock, hReport, if_neg hFits] at hRefused
    cases hRefused

/- A block of a fitting size leaves as the codec packs it. -/
theorem emit_of_packs
    (hEmit : emit.Extends Makes Emitted fun _ => False)
    (hMakes : ∀ content, regrouper.Makes content → Makes content)
    {block packed : Bytes}
    (hPacks : regrouper.Packs block (.ok packed))
    (hFits : PackedBlock.Fits ⟨block, packed⟩)
    (hEmitted : Emitted contents s) :
    ∃ t,
      (ofExcept (.ok packed) >>= emit block).perform s =
        (.ok (), t) ∧
      Emitted (contents ++ [⟨block, packed⟩]) t := by
  have hRun :
      (ofExcept (.ok packed) >>= emit block).perform s =
        (emit block packed).perform s :=
    Step.perform_bind_of_ok (Step.perform_ofExcept _ s)
  rw [hRun]
  rcases hEmit contents ⟨block, packed⟩ s hEmitted hFits
    (hMakes _ (hPacks.makes packed rfl)) with
    ⟨hOk, hMore⟩ | ⟨_, _, hFalse, _⟩
  · exact ⟨_, Prod.ext hOk rfl, hMore⟩
  · exact hFalse.elim

/-
  No write fails. It takes all bytes, emits the full blocks
  that these complete, and holds less than a block.
-/
theorem writeFrom_of_neverFails
    (data : Bytes)
    (hEmit : emit.Extends Makes Emitted fun _ => False)
    (hMakes : ∀ content, regrouper.Makes content → Makes content)
    (hCodec : regrouper.codec.NeverFails regrouper.blockSize)
    (hSize : regrouper.blockSize ≤ maxBlockSize)
    (hHeld : regrouper.held.size < regrouper.blockSize)
    (hEmitted : Emitted contents s) :
    ∃ next t added,
      writeFrom emit data regrouper s = (.ok (), next, t) ∧
      regrouper.Intake next data data.length added ∧
      next.held.size < next.blockSize ∧
      Emitted (contents ++ added) t := by
  induction data, regrouper using rounds generalizing contents s with
  | hLacking data regrouper hLacking =>
    have hLt :
        (regrouper.holding data).held.size <
          regrouper.blockSize := by
      by_cases hNil : data = []
      · subst hNil
        exact hHeld
      · have hShort : ¬ regrouper.missing ≤ data.length :=
          fun hMissing => hLacking ⟨hNil, hMissing⟩
        rw [missing] at hShort
        rw [holding, Tape.size_append]
        omega
    refine
      ⟨regrouper.holding data, s, [],
        writeFrom_of_lacking emit hLacking s, ?_, hLt,
        by simpa using hEmitted⟩
    exact
      { kin := ⟨rfl, rfl⟩
        held_le := Nat.le_of_lt hLt
        taken_le := Nat.le_refl _
        bytes := by simp [holding]
        full := by simp }
  | hCompletes data regrouper hBlock ih =>
    have hFull := hBlock.length (Nat.le_of_lt hHeld)
    have hOffering := regrouper.kin_offering data
    have hPos : 0 < (regrouper.completed data).length := by
      rw [hFull]
      exact regrouper.blockSize_pos
    rcases writeFrom_of_completes hBlock with
      ⟨outcome, hPacks, hWrite⟩
    rcases hPacks.ok_of_neverFails (hOffering.neverFails hCodec)
      hPos (Nat.le_of_eq (hFull.trans hOffering.blockSize.symm)) with
      ⟨packed, rfl⟩
    have hMakes' :
        ∀ content,
          (regrouper.offering data).Makes content →
            Makes content :=
      fun content hMade => hMakes content (hOffering.makes hMade)
    rcases emit_of_packs hEmit hMakes' hPacks
      ⟨hPos, by rw [hFull]; exact hSize⟩ hEmitted with
      ⟨t, hRun, hMore⟩
    have hKin : regrouper.Kin (regrouper.tried data).emptied :=
      (regrouper.kin_tried data).trans (kin_emptied _)
    rcases ih _ hKin rfl
      (fun content hMade => hMakes content (hKin.makes hMade))
      (hKin.neverFails hCodec) (hKin.blockSize ▸ hSize)
      (Regrouper.blockSize_pos _) hMore with
      ⟨next, u, added, hRest, hIntake, hLt, hAll⟩
    refine
      ⟨next, u, ⟨regrouper.completed data, packed⟩ :: added, ?_,
        ?_, hLt, ?_⟩
    · rw [hWrite, hRun]
      exact hRest
    · have hTaken :
          regrouper.Intake next data
            (regrouper.missing +
              (data.drop regrouper.missing).length)
            (⟨regrouper.completed data, packed⟩ :: added) :=
        hIntake.cons hKin hBlock.missing_le rfl hFull rfl
      rw [List.length_drop,
        Nat.add_sub_cancel' hBlock.missing_le] at hTaken
      exact hTaken
    · rwa [List.append_cons]

/- The block that a flush makes of what is held, if any. -/
def remainder
    (regrouper : Regrouper) : List Bytes :=
  if regrouper.held.size = 0 then
    []
  else
    [regrouper.held.toBytes]

/- No flush fails: what is held is emitted, if there is any. -/
theorem flush_of_neverFails
    (hEmit : emit.Extends Makes Emitted fun _ => False)
    (hMakes : ∀ content, regrouper.Makes content → Makes content)
    (hCodec : regrouper.codec.NeverFails regrouper.blockSize)
    (hSize : regrouper.blockSize ≤ maxBlockSize)
    (hHeld : regrouper.held.size < regrouper.blockSize)
    (hEmitted : Emitted contents s) :
    ∃ next t added,
      (flush emit).perform (regrouper, s) =
        (.ok (), next, t) ∧
      regrouper.Kin next ∧
      next.held.size = 0 ∧
      added.map PackedBlock.block = regrouper.remainder ∧
      Emitted (contents ++ added) t := by
  by_cases hNone : regrouper.held.size = 0
  · refine
      ⟨regrouper, s, [], flush_of_none emit hNone s, ⟨rfl, rfl⟩,
        hNone, ?_, by simpa using hEmitted⟩
    exact (if_pos hNone).symm
  · have hLength := regrouper.held.size_eq_length
    have hPos : 0 < regrouper.held.toBytes.length := by omega
    have hLe :
        regrouper.held.toBytes.length ≤ regrouper.blockSize := by
      omega
    rcases flush_of_some hNone with ⟨outcome, hPacks, hFlush⟩
    rcases hPacks.ok_of_neverFails hCodec hPos hLe with
      ⟨packed, rfl⟩
    rcases emit_of_packs hEmit hMakes hPacks
      ⟨hPos, Nat.le_trans hLe hSize⟩ hEmitted with
      ⟨t, hRun, hMore⟩
    refine
      ⟨(regrouper.spent regrouper.held.toBytes).emptied, t,
        [⟨regrouper.held.toBytes, packed⟩], ?_,
        (kin_spent _ _).trans (kin_emptied _), rfl, ?_, hMore⟩
    · rw [hFlush, hRun]
    · exact (if_neg hNone).symm

end Regrouper

end SplitStream
