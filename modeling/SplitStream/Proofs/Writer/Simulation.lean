import SplitStream.Proofs.Writer.Rounds

/-
  Runs of two steps side by side, each on states of its own.
  From states that are alike the runs come to the same result
  and to states that are alike, unless the first one fails in
  a way that is told apart. Regroupers hand the same blocks to
  their emissions, so they follow each other if these do; the
  same is true of two regroupers that take the same blocks and
  pack them alike.

  Main declarations:
    * `Step.Matched`
    * `Step.Simulates`
    * `Step.Simulates.bind`
    * `Step.Simulates.within`
    * `Beside`
    * `Regrouper.Tandem`
    * `Regrouper.Tandem.writeFrom_matched`
    * `Regrouper.Tandem.flush_matched`
    * `Regrouper.writeFrom_matched`
    * `Regrouper.flush_matched`
    * `Regrouper.simulates_write`
    * `Regrouper.simulates_flush`
-/

------------------------------------------------------------
-- Steps
------------------------------------------------------------

namespace SplitStream

namespace Step

variable {ε σ τ σ' τ' α β : Type}

/-
  Two runs have come to states that are alike and to the same
  result, which is a success or a common error; or the first
  run has failed and is lost.
-/
abbrev Matched
    (Common : ε → Prop)
    (Alike : σ → τ → Prop)
    (Lost : ε → σ → Prop)
    (left : Except ε α × σ)
    (right : Except ε α × τ) : Prop :=
  (∃ result s t,
    left = (result, s) ∧
    right = (result, t) ∧
    Alike s t ∧
    ∀ e, result = .error e → Common e) ∨
  ∃ e s, left = (.error e, s) ∧ Lost e s

/- The runs of two steps from states that are alike. -/
def Simulates
    (Common : ε → Prop)
    (Alike : σ → τ → Prop)
    (Lost : ε → σ → Prop)
    (left : Step ε σ α)
    (right : Step ε τ α) : Prop :=
  ∀ s t,
    Alike s t →
      Matched Common Alike Lost
        (left.perform s) (right.perform t)

variable
  {Common : ε → Prop} {Alike : σ → τ → Prop}
  {Lost : ε → σ → Prop}

theorem matched_ok
    {a : α}
    {s : σ}
    {t : τ}
    (hAlike : Alike s t) :
    Matched Common Alike Lost
      ((.ok a, s) : Except ε α × σ) (.ok a, t) := by
  left
  refine ⟨.ok a, s, t, rfl, rfl, hAlike, ?_⟩
  intro e hError
  cases hError

theorem matched_error
    {e : ε}
    {s : σ}
    {t : τ}
    (hCommon : Common e)
    (hAlike : Alike s t) :
    Matched Common Alike Lost
      ((.error e, s) : Except ε α × σ) (.error e, t) := by
  left
  refine ⟨.error e, s, t, rfl, rfl, hAlike, ?_⟩
  intro e' hError
  cases hError
  exact hCommon

theorem simulates_pure
    (a : α) :
    Simulates Common Alike Lost
      (pure a : Step ε σ α) (pure a : Step ε τ α) :=
  fun _ _ hAlike => matched_ok hAlike

theorem simulates_throw
    {e : ε}
    (hCommon : Common e) :
    Simulates Common Alike Lost
      (throw e : Step ε σ α) (throw e : Step ε τ α) :=
  fun _ _ hAlike => matched_error hCommon hAlike

theorem simulates_ofExcept
    {result : Except ε α}
    (hCommon : ∀ e, result = .error e → Common e) :
    Simulates Common Alike Lost
      (ofExcept result : Step ε σ α)
      (ofExcept result : Step ε τ α) := by
  intro s t hAlike
  left
  exact
    ⟨result, s, t, perform_ofExcept result s,
      perform_ofExcept result t, hAlike, hCommon⟩

theorem simulates_modify
    {f : σ → σ}
    {g : τ → τ}
    (hAlike : ∀ s t, Alike s t → Alike (f s) (g t)) :
    Simulates Common Alike Lost
      (modify f : Step ε σ PUnit)
      (modify g : Step ε τ PUnit) :=
  fun s t h => matched_ok (hAlike s t h)

/- What follows two runs that match makes them match again. -/
theorem Matched.bind
    {left : Step ε σ α}
    {right : Step ε τ α}
    {leftNext : α → Step ε σ β}
    {rightNext : α → Step ε τ β}
    {s : σ}
    {t : τ}
    (hFirst :
      Matched Common Alike Lost (left.perform s) (right.perform t))
    (hNext :
      ∀ a,
        Simulates Common Alike Lost
          (leftNext a) (rightNext a)) :
    Matched Common Alike Lost
      ((left >>= leftNext).perform s)
      ((right >>= rightNext).perform t) := by
  rcases hFirst with
    ⟨result, s', t', hLeft, hRight, hBoth, hCommon⟩ |
      ⟨e, s', hLeft, hLost⟩
  · cases result with
    | error e =>
      rw [perform_bind_of_error hLeft,
        perform_bind_of_error hRight]
      exact matched_error (hCommon e rfl) hBoth
    | ok a =>
      rw [perform_bind_of_ok hLeft, perform_bind_of_ok hRight]
      exact hNext a s' t' hBoth
  · right
    exact ⟨e, s', perform_bind_of_error hLeft, hLost⟩

theorem Simulates.bind
    {left : Step ε σ α}
    {right : Step ε τ α}
    {leftNext : α → Step ε σ β}
    {rightNext : α → Step ε τ β}
    (hFirst : Simulates Common Alike Lost left right)
    (hNext :
      ∀ a,
        Simulates Common Alike Lost
          (leftNext a) (rightNext a)) :
    Simulates Common Alike Lost
      (left >>= leftNext) (right >>= rightNext) :=
  fun s t hAlike => Matched.bind (hFirst s t hAlike) hNext

/- What is done with states that are alike may look at them. -/
theorem simulates_get_bind
    {leftNext : σ → Step ε σ β}
    {rightNext : τ → Step ε τ β}
    (hNext :
      ∀ s t,
        Alike s t →
          Matched Common Alike Lost
            ((leftNext s).perform s) ((rightNext t).perform t)) :
    Simulates Common Alike Lost
      (get >>= leftNext) (get >>= rightNext) := by
  intro s t hAlike
  rw [perform_bind_of_ok (perform_get s),
    perform_bind_of_ok (perform_get t)]
  exact hNext s t hAlike

/- A choice that both sides make alike. -/
theorem Simulates.ite
    {condition : Prop}
    [Decidable condition]
    {left left' : Step ε σ α}
    {right right' : Step ε τ α}
    (hThen : Simulates Common Alike Lost left right)
    (hElse : Simulates Common Alike Lost left' right') :
    Simulates Common Alike Lost
      (if condition then left else left')
      (if condition then right else right') := by
  by_cases hCondition : condition
  · rw [if_pos hCondition, if_pos hCondition]
    exact hThen
  · rw [if_neg hCondition, if_neg hCondition]
    exact hElse

/- Steps on parts make the wholes follow each other. -/
theorem Simulates.within
    {AlikePart : σ' → τ' → Prop}
    {LostPart : ε → σ' → Prop}
    {left : Step ε σ' α}
    {right : Step ε τ' α}
    {leftGet : σ → σ'}
    {leftSet : σ' → σ → σ}
    {rightGet : τ → τ'}
    {rightSet : τ' → τ → τ}
    (hPart : Simulates Common AlikePart LostPart left right)
    (hGet :
      ∀ s t, Alike s t → AlikePart (leftGet s) (rightGet t))
    (hSet :
      ∀ s t a b,
        Alike s t →
        AlikePart a b →
          Alike (leftSet a s) (rightSet b t))
    (hLost :
      ∀ e s a, LostPart e a → Lost e (leftSet a s)) :
    Simulates Common Alike Lost
      (within leftGet leftSet left)
      (within rightGet rightSet right) := by
  intro s t hAlike
  rcases hPart _ _ (hGet s t hAlike) with
    ⟨result, a, b, hLeft, hRight, hBoth, hCommon⟩ |
      ⟨e, a, hLeft, hAway⟩
  · left
    refine
      ⟨result, leftSet a s, rightSet b t, ?_, ?_,
        hSet s t a b hAlike hBoth, hCommon⟩
    · rw [perform_within, hLeft]
    · rw [perform_within, hRight]
  · right
    refine ⟨e, leftSet a s, ?_, hLost e s a hAway⟩
    rw [perform_within, hLeft]

end Step

------------------------------------------------------------
-- Parts Beside Worlds
------------------------------------------------------------

variable {σ ω ω' : Type}

/- The same part beside two worlds that are alike. -/
def Beside
    (Alike : ω → ω' → Prop)
    (left : σ × ω)
    (right : σ × ω') : Prop :=
  left.1 = right.1 ∧ Alike left.2 right.2

/- Twins beside two worlds that are alike. -/
def Coupled
    {τ : Type}
    (Twin : σ → τ → Prop)
    (Alike : ω → ω' → Prop)
    (left : σ × ω)
    (right : τ × ω') : Prop :=
  Twin left.1 right.1 ∧ Alike left.2 right.2

/- The first of two worlds, beside some part, is lost. -/
def LostBeside
    (Lost : Error → ω → Prop)
    (e : Error)
    (state : σ × ω) : Prop :=
  Lost e state.2

------------------------------------------------------------
-- Regroupers
------------------------------------------------------------

namespace Regrouper

variable
  {Common : Error → Prop} {Alike : ω → ω' → Prop}
  {Lost : Error → ω → Prop}
  {emit : Emission ω} {other : Emission ω'}

/- A block that is packed is handed to both emissions. -/
theorem Packs.simulates
    {first second : Regrouper}
    {block : Bytes}
    {outcome : Except Error Bytes}
    (hFirst : first.Packs block outcome)
    (hSecond : second.Packs block outcome)
    (hRefused : ∀ e, Refuses (fun _ => False) e → Common e)
    (hEmit :
      ∀ packed,
        first.Makes ⟨block, packed⟩ →
        second.Makes ⟨block, packed⟩ →
          Step.Simulates Common Alike Lost
            (emit block packed) (other block packed)) :
    Step.Simulates Common Alike Lost
      (ofExcept outcome >>= emit block)
      (ofExcept outcome >>= other block) := by
  cases outcome with
  | error e =>
    have hCommon := hRefused e (hFirst.refuses e rfl)
    exact Step.simulates_throw hCommon
  | ok packed =>
    exact
      hEmit packed (hFirst.makes packed rfl)
        (hSecond.makes packed rfl)

/-
  Twins hold the same bytes and pack blocks alike, and stay
  twins whatever is done with both of them.
-/
structure Tandem
    (Twin : Regrouper → Regrouper → Prop) : Prop where
  blockSize :
    ∀ {left right},
      Twin left right → right.blockSize = left.blockSize
  held : ∀ {left right}, Twin left right → right.held = left.held
  packs :
    ∀ {left right},
      Twin left right →
        ∀ {block outcome},
          right.Packs block outcome → left.Packs block outcome
  holding :
    ∀ {left right},
      Twin left right →
        ∀ bs, Twin (left.holding bs) (right.holding bs)
  spent :
    ∀ {left right},
      Twin left right →
        ∀ block, Twin (left.spent block) (right.spent block)
  emptied :
    ∀ {left right},
      Twin left right → Twin left.emptied right.emptied

/- A regrouper is its own twin. -/
theorem tandem_eq : Tandem Eq where
  blockSize := by
    intro left right hSame
    rw [hSame]
  held := by
    intro left right hSame
    rw [hSame]
  packs := by
    intro left right hSame block outcome hPacks
    rw [hSame]
    exact hPacks
  holding := by
    intro left right hSame bs
    rw [hSame]
  spent := by
    intro left right hSame block
    rw [hSame]
  emptied := by
    intro left right hSame
    rw [hSame]

namespace Tandem

variable
  {Twin : Regrouper → Regrouper → Prop}
  {first second : Regrouper}

theorem missing
    (hTandem : Tandem Twin)
    (hTwin : Twin first second) :
    second.missing = first.missing := by
  rw [Regrouper.missing, Regrouper.missing,
    hTandem.blockSize hTwin, hTandem.held hTwin]

theorem completed
    (hTandem : Tandem Twin)
    (hTwin : Twin first second)
    (data : Bytes) :
    second.completed data = first.completed data := by
  rw [Regrouper.completed, Regrouper.completed,
    hTandem.missing hTwin, hTandem.held hTwin]

/- Twins are completed by the same bytes. -/
theorem completes_iff
    (hTandem : Tandem Twin)
    (hTwin : Twin first second)
    (data : Bytes) :
    second.Completes data ↔ first.Completes data := by
  have hMissing := hTandem.missing hTwin
  constructor
  · intro h
    exact ⟨h.some, hMissing ▸ h.missing_le⟩
  · intro h
    exact ⟨h.some, hMissing ▸ h.missing_le⟩

theorem offering
    (hTandem : Tandem Twin)
    (hTwin : Twin first second)
    (data : Bytes) :
    Twin (first.offering data) (second.offering data) := by
  have hHeld := hTandem.held hTwin
  by_cases hNone : first.held.size = 0
  · rw [offering_of_none data hNone,
      offering_of_none data (hHeld ▸ hNone)]
    exact hTwin
  · rw [offering_of_some data hNone,
      offering_of_some data (hHeld ▸ hNone),
      hTandem.missing hTwin]
    exact hTandem.holding hTwin _

theorem tried
    (hTandem : Tandem Twin)
    (hTwin : Twin first second)
    (data : Bytes) :
    Twin (first.tried data) (second.tried data) := by
  rw [Regrouper.tried, Regrouper.tried,
    hTandem.completed hTwin]
  exact hTandem.spent (hTandem.offering hTwin data) _

/-
  Writes of twins follow each other if the emissions do on
  what the codec makes of full blocks.
-/
theorem writeFrom_matched
    (hTandem : Tandem Twin)
    (data : Bytes)
    (hTwin : Twin first second)
    (hRefused : ∀ e, Refuses (fun _ => False) e → Common e)
    (hEmit :
      ∀ block packed,
        (first.held.size ≤ first.blockSize →
          block.length = first.blockSize) →
        first.Makes ⟨block, packed⟩ →
        second.Makes ⟨block, packed⟩ →
          Step.Simulates Common Alike Lost
            (emit block packed) (other block packed))
    (s : ω)
    (t : ω')
    (hAlike : Alike s t) :
    Step.Matched Common (Coupled Twin Alike) (LostBeside Lost)
      (writeFrom emit data first s)
      (writeFrom other data second t) := by
  induction data, first using rounds
    generalizing second s t with
  | hLacking data first hLacking =>
    have hAlso := mt (hTandem.completes_iff hTwin data).mp hLacking
    rw [writeFrom_of_lacking emit hLacking,
      writeFrom_of_lacking other hAlso]
    exact
      Step.matched_ok ⟨hTandem.holding hTwin data, hAlike⟩
  | hCompletes data first hCompletes ih =>
    have hAlso := (hTandem.completes_iff hTwin data).mpr hCompletes
    have hOffered := hTandem.offering hTwin data
    have hTried := hTandem.tried hTwin data
    rcases exists_packs (second.offering data)
      (second.completed data) with ⟨outcome, hRight⟩
    have hLeft := hTandem.packs hOffered hRight
    rw [writeFrom_of_packs hAlso hRight]
    rw [hTandem.completed hTwin, hTandem.missing hTwin]
    rw [hTandem.completed hTwin] at hLeft
    rw [writeFrom_of_packs hCompletes hLeft]
    rw [hTandem.completed hTwin] at hRight
    have hOffering := first.kin_offering data
    have hOther := second.kin_offering data
    have hBlock :=
      hLeft.simulates hRight hRefused fun packed hMakes hMade =>
        hEmit _ packed hCompletes.length (hOffering.makes hMakes)
          (hOther.makes hMade)
    have hKin := (first.kin_tried data).trans (kin_emptied _)
    have hKin' := (second.kin_tried data).trans (kin_emptied _)
    rcases hBlock s t hAlike with
      ⟨result, s', t', hFirst, hSecond, hBoth, hCommon⟩ |
        ⟨e, s', hFirst, hLost⟩
    · rw [hFirst, hSecond]
      cases result with
      | error e =>
        exact Step.matched_error (hCommon e rfl) ⟨hTried, hBoth⟩
      | ok _ =>
        apply ih _ hKin rfl (hTandem.emptied hTried) _ s' t' hBoth
        intro block packed hFull hMakes hMade
        apply hEmit block packed _ (hKin.makes hMakes)
          (hKin'.makes hMade)
        intro _
        rw [hFull (Nat.zero_le _), hKin.blockSize]
    · rw [hFirst]
      right
      exact ⟨e, (first.tried data, s'), rfl, hLost⟩

/- So do flushes on what the codec makes of the held block. -/
theorem flush_matched
    (hTandem : Tandem Twin)
    (hTwin : Twin first second)
    (hRefused : ∀ e, Refuses (fun _ => False) e → Common e)
    (hEmit :
      ∀ packed,
        first.held.size ≠ 0 →
        first.Makes ⟨first.held.toBytes, packed⟩ →
        second.Makes ⟨first.held.toBytes, packed⟩ →
          Step.Simulates Common Alike Lost
            (emit first.held.toBytes packed)
            (other first.held.toBytes packed))
    (s : ω)
    (t : ω')
    (hAlike : Alike s t) :
    Step.Matched Common (Coupled Twin Alike) (LostBeside Lost)
      ((flush emit).perform (first, s))
      ((flush other).perform (second, t)) := by
  have hHeld := hTandem.held hTwin
  by_cases hNone : first.held.size = 0
  · rw [flush_of_none emit hNone,
      flush_of_none other (hHeld ▸ hNone)]
    exact Step.matched_ok ⟨hTwin, hAlike⟩
  · rcases exists_packs second second.held.toBytes with
      ⟨outcome, hRight⟩
    have hLeft := hTandem.packs hTwin hRight
    have hSpent := hTandem.spent hTwin first.held.toBytes
    rw [flush_of_packs (hHeld ▸ hNone) hRight]
    rw [hHeld] at hLeft hRight ⊢
    rw [flush_of_packs hNone hLeft]
    have hBlock :=
      hLeft.simulates hRight hRefused fun packed hMakes hMade =>
        hEmit packed hNone hMakes hMade
    rcases hBlock s t hAlike with
      ⟨result, s', t', hFirst, hSecond, hBoth, hCommon⟩ |
        ⟨e, s', hFirst, hLost⟩
    · rw [hFirst, hSecond]
      cases result with
      | error e =>
        exact Step.matched_error (hCommon e rfl) ⟨hSpent, hBoth⟩
      | ok _ =>
        exact Step.matched_ok ⟨hTandem.emptied hSpent, hBoth⟩
    · rw [hFirst]
      right
      exact
        ⟨e, (first.spent first.held.toBytes, s'), rfl, hLost⟩

end Tandem

/-
  Writes follow each other if the emissions do on what the
  codec makes of full blocks.
-/
theorem writeFrom_matched
    (data : Bytes)
    (regrouper : Regrouper)
    (hRefused : ∀ e, Refuses (fun _ => False) e → Common e)
    (hEmit :
      ∀ block packed,
        (regrouper.held.size ≤ regrouper.blockSize →
          block.length = regrouper.blockSize) →
        regrouper.Makes ⟨block, packed⟩ →
          Step.Simulates Common Alike Lost
            (emit block packed) (other block packed))
    (s : ω)
    (t : ω')
    (hAlike : Alike s t) :
    Step.Matched Common (Beside Alike) (LostBeside Lost)
      (writeFrom emit data regrouper s)
      (writeFrom other data regrouper t) :=
  tandem_eq.writeFrom_matched data rfl hRefused
    (fun block packed hFull hMakes _ =>
      hEmit block packed hFull hMakes)
    s t hAlike

/- So do flushes on what the codec makes of the held block. -/
theorem flush_matched
    (regrouper : Regrouper)
    (hRefused : ∀ e, Refuses (fun _ => False) e → Common e)
    (hEmit :
      ∀ packed,
        regrouper.held.size ≠ 0 →
        regrouper.Makes ⟨regrouper.held.toBytes, packed⟩ →
          Step.Simulates Common Alike Lost
            (emit regrouper.held.toBytes packed)
            (other regrouper.held.toBytes packed))
    (s : ω)
    (t : ω')
    (hAlike : Alike s t) :
    Step.Matched Common (Beside Alike) (LostBeside Lost)
      ((flush emit).perform (regrouper, s))
      ((flush other).perform (regrouper, t)) :=
  tandem_eq.flush_matched rfl hRefused
    (fun packed hHeld hMakes _ => hEmit packed hHeld hMakes)
    s t hAlike

/- Emissions that follow each other make regroupers do so. -/
theorem simulates_write
    (hRefused : ∀ e, Refuses (fun _ => False) e → Common e)
    (hEmit :
      ∀ block packed,
        Step.Simulates Common Alike Lost
          (emit block packed) (other block packed))
    (data : Bytes) :
    Step.Simulates Common (Beside Alike) (LostBeside Lost)
      (write emit data) (write other data) := by
  rintro ⟨regrouper, s⟩ ⟨_, t⟩ ⟨rfl, hAlike⟩
  exact
    writeFrom_matched data regrouper hRefused
      (fun block packed _ _ => hEmit block packed) s t hAlike

theorem simulates_flush
    (hRefused : ∀ e, Refuses (fun _ => False) e → Common e)
    (hEmit :
      ∀ block packed,
        Step.Simulates Common Alike Lost
          (emit block packed) (other block packed)) :
    Step.Simulates Common (Beside Alike) (LostBeside Lost)
      (flush emit) (flush other) := by
  rintro ⟨regrouper, s⟩ ⟨_, t⟩ ⟨rfl, hAlike⟩
  exact
    flush_matched regrouper hRefused
      (fun packed _ _ => hEmit _ packed) s t hAlike

end Regrouper

end SplitStream
