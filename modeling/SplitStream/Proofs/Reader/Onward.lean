import SplitStream.Proofs.Reader.Rounds

/-
  Readers of containers over any source. Whatever a round
  finds takes bytes from the source, so the loop over rounds
  comes to its end by itself, and a call that fails leaves
  nothing behind but a source that has gone on.

  Main declarations:
    * `ContainerReader.GoesOn`
    * `ContainerReader.Onward`
    * `ContainerReader.goesOn_of_decodeFrame`
    * `ContainerReader.turns_of_round`
    * `ContainerReader.finds_of_readFrameRounds`
    * `ContainerReader.perform_readFrameRounds_of_more`
    * `ContainerReader.finds_of_readFrame`
-/

------------------------------------------------------------
-- Readers That Go On
------------------------------------------------------------

namespace SplitStream

namespace ContainerReader

open FrameReader Reading

variable {reader next : ContainerReader}

theorem onward_readRecorded
    (checksums : Selection)
    (plain : Nat) :
    (Recorded.read checksums plain).Onward :=
  Recorded.hereditary_read hereditary_onward checksums plain

/-
  A reader has gone on in its source: nothing else that shows
  to its user has changed.
-/
structure GoesOn
    (reader next : ContainerReader) : Prop where
  ahead : ∃ n, reader.source.Ahead next.source n
  ready : next.staging.ready = reader.staging.ready
  frames : next.frames = reader.frames
  codec : next.codec = reader.codec
  follow : next.followMembers = reader.followMembers

namespace GoesOn

theorem refl
    (reader : ContainerReader) :
    reader.GoesOn reader :=
  ⟨⟨0, .refl _⟩, rfl, rfl, rfl, rfl⟩

theorem trans
    {middle : ContainerReader}
    (hFirst : reader.GoesOn middle)
    (hSecond : middle.GoesOn next) :
    reader.GoesOn next := by
  rcases hFirst.ahead with ⟨n, hAhead⟩
  rcases hSecond.ahead with ⟨m, hMoved⟩
  exact
    { ahead := ⟨n + m, hAhead.trans hMoved⟩
      ready := hSecond.ready.trans hFirst.ready
      frames := hSecond.frames.trans hFirst.frames
      codec := hSecond.codec.trans hFirst.codec
      follow := hSecond.follow.trans hFirst.follow }

theorem remaining_le
    (h : reader.GoesOn next) :
    next.source.remaining ≤ reader.source.remaining := by
  rcases h.ahead with ⟨n, hAhead⟩
  exact hAhead.remaining_le

end GoesOn

/- A step after which the reader has gone on, if not failed. -/
def Onward
    {α : Type}
    (action : Action ContainerReader α) : Prop :=
  ∀ (reader next : ContainerReader) (result : Except Error α),
    action.perform reader = (result, next) → reader.GoesOn next

variable {α β : Type}

/- The source and what shows stay as they are. -/
theorem onward_of_same
    {action : Action ContainerReader α}
    (h :
      ∀ reader : ContainerReader,
        reader.GoesOn (action.perform reader).2) :
    Onward action := by
  intro reader next result hRun
  have hSame := h reader
  rw [hRun] at hSame
  exact hSame

theorem Onward.bind
    {action : Action ContainerReader α}
    {after : α → Action ContainerReader β}
    (hAction : Onward action)
    (hAfter : ∀ a, Onward (after a)) :
    Onward (action >>= after) := by
  intro reader next result hRun
  rcases hFirst : action.perform reader with ⟨e | a, middle⟩
  · rw [Step.perform_bind_of_error hFirst] at hRun
    cases hRun
    exact hAction reader next _ hFirst
  · rw [Step.perform_bind_of_ok hFirst] at hRun
    exact
      (hAction reader middle _ hFirst).trans
        (hAfter a middle next result hRun)

theorem onward_pure
    (a : α) :
    Onward (pure a) :=
  onward_of_same fun reader => .refl reader

theorem onward_ofExcept
    (result : Except Error α) :
    Onward (ofExcept result) := by
  apply onward_of_same
  intro reader
  rw [Step.perform_ofExcept]
  exact .refl reader

theorem onward_onSource
    {reading : Reading α}
    (hReading : reading.Onward) :
    Onward (onSource reading) := by
  intro reader next result hRun
  cases hRun
  exact
    { ahead := (hReading reader.source _ _ rfl).1
      ready := rfl
      frames := rfl
      codec := rfl
      follow := rfl }

theorem onward_startMember
    (header : Header) :
    Onward (startMember header) := by
  intro reader next result hRun
  rw [startMember,
    Step.perform_bind_of_ok (Step.perform_get reader)] at hRun
  apply (onward_ofExcept _).bind _ reader next result hRun
  intro checked
  exact onward_of_same fun _ => ⟨⟨0, .refl _⟩, rfl, rfl, rfl, rfl⟩

theorem onward_nextMember : Onward nextMember := by
  unfold nextMember
  apply (onward_onSource (onward_upTo 9)).bind
  intro found
  by_cases hMagic : found = Container.magic
  · rw [if_neg (not_not_intro hMagic)]
    apply (onward_onSource Header.onward_readAfterMagic).bind
    intro header
    apply (onward_startMember header).bind
    intro started
    exact onward_pure true
  · rw [if_pos hMagic]
    exact onward_pure false

------------------------------------------------------------
-- Frames
------------------------------------------------------------

/- Unpacking touches nothing but the staging area. -/
theorem onward_unpack
    (payload : Bytes)
    (plain : Nat) :
    Onward (unpack payload plain) := by
  apply onward_of_same
  intro reader
  unfold unpack
  rw [Step.perform_ofStep]
  by_cases hStored : payload.length = plain
  · simp only [hStored, if_true]
    exact ⟨⟨0, .refl _⟩, rfl, rfl, rfl, rfl⟩
  · simp only [hStored, if_false]
    refine ⟨⟨0, .refl _⟩, ?_, rfl, rfl, rfl⟩
    unfold Staging.decompress
    dsimp only
    split
    · rfl
    · split
      · rfl
      · rfl

/- Check the payload, and unpack it without handing it out. -/
def Recorded.stage
    (recorded : Recorded)
    (plain : Nat) : Action ContainerReader Recorded := do
  ofExcept (verify .packed recorded.payload recorded.packedSums)
  unpack recorded.payload plain
  return recorded

theorem onward_stage
    (recorded : Recorded)
    (plain : Nat) :
    Onward (recorded.stage plain) := by
  unfold Recorded.stage
  apply (onward_ofExcept _).bind
  intro passed
  apply (onward_unpack _ plain).bind
  intro unpacked
  exact onward_pure _

/- Only the last step of decoding shows to a user. -/
theorem perform_decodeFrame_deliver
    (reader : ContainerReader)
    (plain : Nat) :
    (decodeFrame plain).perform reader =
      ((onSource (Recorded.read reader.checksums plain) >>=
          fun recorded => recorded.stage plain) >>=
        fun recorded =>
          deliver plain recorded.plainSums).perform reader := by
  rw [perform_decodeFrame_eq]
  unfold Recorded.settle Recorded.stage
  simp only [bind_assoc, pure_bind]

/- Bytes are made ready, or the reader stays as it is. -/
theorem perform_deliver_eq
    (reader : ContainerReader)
    (plain : Nat)
    (sums : List (Checksum × UInt32)) :
    (deliver plain sums).perform reader =
      match verify .plain (reader.staging.commit plain).ready sums
        with
      | .error e => (.error e, reader)
      | .ok () =>
          (.ok (),
            { reader with
              staging := reader.staging.commit plain
              frames := reader.frames + 1 }) := by
  rw [deliver, Step.perform_bind_of_ok (Step.perform_get reader),
    Step.perform_bind, Step.perform_ofExcept]
  rcases verify .plain (reader.staging.commit plain).ready sums
    with e | ⟨⟩
  · rfl
  · rfl

/-
  What decoding leaves: a reader that has gone on, and whose
  block has become ready if nothing failed.
-/
theorem goesOn_of_decodeFrame
    {plain : Nat}
    {result : Except Error Unit}
    (hRun : (decodeFrame plain).perform reader = (result, next)) :
    ∃ middle,
      reader.GoesOn middle ∧
      (∀ e, result = .error e → next = middle) ∧
      (result = .ok () →
        next =
          { middle with
            staging := middle.staging.commit plain
            frames := middle.frames + 1 }) := by
  rw [perform_decodeFrame_deliver] at hRun
  have hOnward :
      Onward
        (onSource (Recorded.read reader.checksums plain) >>=
          fun recorded => recorded.stage plain) :=
    (onward_onSource (onward_readRecorded _ plain)).bind
      fun recorded => onward_stage recorded plain
  rcases hStage :
      (onSource (Recorded.read reader.checksums plain) >>=
        fun recorded => recorded.stage plain).perform reader with
    ⟨e | recorded, middle⟩
  · rw [Step.perform_bind_of_error hStage] at hRun
    cases hRun
    refine ⟨next, hOnward _ _ _ hStage, fun _ _ => rfl, ?_⟩
    intro hOk
    cases hOk
  · rw [Step.perform_bind_of_ok hStage, perform_deliver_eq] at hRun
    refine ⟨middle, hOnward _ _ _ hStage, ?_⟩
    rcases hVerify :
        verify .plain (middle.staging.commit plain).ready
          recorded.plainSums with
      e | ⟨⟩
    · rw [hVerify] at hRun
      cases hRun
      refine ⟨fun _ _ => rfl, ?_⟩
      intro hOk
      cases hOk
    · rw [hVerify] at hRun
      cases hRun
      refine ⟨?_, fun _ => rfl⟩
      intro e hError
      cases hError

------------------------------------------------------------
-- Rounds
------------------------------------------------------------

/- What a round leaves, whatever the source does. -/
inductive Turns
    (reader : ContainerReader) :
    Except Error Round × ContainerReader → Prop where
  | ended {next : ContainerReader} :
      reader.GoesOn next →
      next.stage = .ended →
        Turns reader (.ok .ended, next)
  | member {next : ContainerReader} :
      reader.GoesOn next →
      next.source.remaining < reader.source.remaining →
        Turns reader (.ok .member, next)
  | frame {middle : ContainerReader} (plain : Nat) :
      reader.GoesOn middle →
      middle.source.remaining < reader.source.remaining →
        Turns reader
          (.ok .frame,
            { middle with
              staging := middle.staging.commit plain
              frames := middle.frames + 1 })
  | failed {next : ContainerReader} (e : Error) :
      reader.GoesOn next →
        Turns reader (.error e, next)

/- A round may go on from a reader that has gone on. -/
theorem Turns.behind
    {middle : ContainerReader}
    {outcome : Except Error Round × ContainerReader}
    (hTurns : middle.Turns outcome)
    (hGoes : reader.GoesOn middle) :
    reader.Turns outcome := by
  have hLe := hGoes.remaining_le
  cases hTurns with
  | ended hNext hStage => exact .ended (hGoes.trans hNext) hStage
  | member hNext hLess =>
    exact .member (hGoes.trans hNext) (by omega)
  | frame plain hNext hLess =>
    exact .frame plain (hGoes.trans hNext) (by omega)
  | failed e hNext => exact .failed e (hGoes.trans hNext)

/- Without a further member, the reader stays where it is. -/
theorem stage_of_nextMember
    (hRun : nextMember.perform reader = (.ok false, next)) :
    next.stage = reader.stage := by
  unfold nextMember at hRun
  rcases Step.ok_of_perform_bind hRun with
    ⟨found, middle, hFound, hRest⟩
  rcases Prod.mk.inj hFound with ⟨_, rfl⟩
  by_cases hMagic : found = Container.magic
  · rw [if_neg (not_not_intro hMagic)] at hRest
    rcases Step.ok_of_perform_bind hRest with ⟨_, _, _, hStart⟩
    rcases Step.ok_of_perform_bind hStart with ⟨_, _, _, hLast⟩
    cases hLast
  · rw [if_pos hMagic] at hRest
    cases hRest
    rfl

/- Behind a terminator there may be a further member. -/
theorem turns_of_terminator
    (hGoes : reader.GoesOn next)
    (hLess : next.source.remaining < reader.source.remaining) :
    reader.Turns ((proceed (some 0)).perform next) := by
  have hEnded :
      reader.GoesOn { next with stage := .ended } :=
    hGoes.trans ⟨⟨0, .refl _⟩, rfl, rfl, rfl, rfl⟩
  by_cases hFollow : next.followMembers = true
  · rw [perform_proceed next hFollow, Step.perform_map]
    rcases hNext :
        nextMember.perform { next with stage := .ended } with
      ⟨result, last⟩
    have hMoved := onward_nextMember _ _ _ hNext
    have hLast := hEnded.trans hMoved
    rcases result with e | _ | _
    · exact .failed e hLast
    · exact .ended hLast (stage_of_nextMember hNext)
    · apply Turns.member hLast
      exact Nat.lt_of_le_of_lt hMoved.remaining_le hLess
  · rw [proceed, Step.perform_bind_of_ok (Step.perform_modify _ _),
      Step.perform_bind_of_ok (Step.perform_get _), if_neg hFollow]
    exact .ended hEnded rfl

/- Behind the word that a frame starts with. -/
theorem turns_of_proceed
    {start : Option Nat}
    (hGoes : reader.GoesOn next)
    (hLess :
      ∀ plain,
        start = some plain →
          next.source.remaining < reader.source.remaining) :
    reader.Turns ((proceed start).perform next) := by
  rcases start with _ | _ | n
  · exact .failed _ hGoes
  · exact turns_of_terminator hGoes (hLess 0 rfl)
  · rw [proceed]
    · rcases hDecode : (decodeFrame (n + 1)).perform next with
        ⟨result, last⟩
      rcases goesOn_of_decodeFrame hDecode with
        ⟨middle, hMiddle, hFailed, hDone⟩
      have hThere := hGoes.trans hMiddle
      rcases result with e | ⟨⟩
      · rw [Step.perform_bind_of_error hDecode, hFailed e rfl]
        exact .failed e hThere
      · rw [Step.perform_bind_of_ok hDecode, hDone rfl]
        apply Turns.frame (n + 1) hThere
        exact
          Nat.lt_of_le_of_lt hMiddle.remaining_le
            (hLess (n + 1) rfl)
    · intro hZero
      cases hZero

/- Before frames, a round finds what the source holds. -/
theorem turns_of_frames
    (hStage : reader.stage = .frames) :
    reader.Turns (round.perform reader) := by
  rw [perform_round hStage]
  rcases hStart : (onSource frameStart).perform reader with
    ⟨e | start, next⟩
  · rw [Step.perform_bind_of_error hStart]
    exact
      .failed e (onward_onSource onward_frameStart _ _ _ hStart)
  · rw [Step.perform_bind_of_ok hStart]
    have hGoes :=
      onward_onSource onward_frameStart _ _ _ hStart
    apply turns_of_proceed hGoes
    rintro plain rfl
    rcases Prod.mk.inj hStart with ⟨hWord, rfl⟩
    exact remaining_of_frameStart (Prod.ext hWord rfl)

/- A header that is due is read, and the round goes on. -/
theorem perform_round_of_due
    (hStage : reader.stage = .headerDue) :
    round.perform reader =
      ((onSource Header.read >>= startMember) >>= fun _ =>
        onSource frameStart >>= proceed).perform reader := by
  unfold round
  rw [Step.perform_bind_of_ok (Step.perform_get reader),
    if_neg (by simp [hStage]), if_pos hStage, bind_assoc]

/- A member that is started stands before its frames. -/
theorem stage_of_startMember
    {header : Header}
    (hRun :
      (startMember header).perform reader = (.ok (), next)) :
    next.stage = .frames := by
  rw [startMember,
    Step.perform_bind_of_ok (Step.perform_get reader)] at hRun
  rcases Step.ok_of_perform_bind hRun with ⟨_, _, _, hModify⟩
  cases hModify
  rfl

/- Every round turns out in one of the four ways. -/
theorem turns_of_round
    (reader : ContainerReader) :
    reader.Turns (round.perform reader) := by
  cases hStage : reader.stage with
  | frames => exact turns_of_frames hStage
  | ended =>
    have hRound : round.perform reader = (.ok .ended, reader) := by
      unfold round
      rw [Step.perform_bind_of_ok (Step.perform_get reader),
        if_pos hStage]
      rfl
    rw [hRound]
    exact .ended (.refl reader) hStage
  | headerDue =>
    rw [perform_round_of_due hStage]
    have hOnward :
        Onward (onSource Header.read >>= startMember) :=
      (onward_onSource Header.onward_read).bind
        onward_startMember
    rcases hEnter :
        (onSource Header.read >>= startMember).perform reader with
      ⟨e | ⟨⟩, next⟩
    · rw [Step.perform_bind_of_error hEnter]
      exact .failed e (hOnward _ _ _ hEnter)
    · rw [Step.perform_bind_of_ok hEnter]
      rcases Step.ok_of_perform_bind hEnter with
        ⟨header, middle, _, hStart⟩
      have hFrames := stage_of_startMember hStart
      rw [← perform_round hFrames]
      exact
        (turns_of_frames hFrames).behind (hOnward _ _ _ hEnter)

------------------------------------------------------------
-- Whole Calls
------------------------------------------------------------

/- What a call for a frame leaves, whatever the source does. -/
inductive Finds
    (reader : ContainerReader) :
    Except Error Bool × ContainerReader → Prop where
  | ended {next : ContainerReader} :
      reader.GoesOn next →
      next.stage = .ended →
        Finds reader (.ok false, next)
  | frame {middle : ContainerReader} (plain : Nat) :
      reader.GoesOn middle →
      middle.source.remaining < reader.source.remaining →
        Finds reader
          (.ok true,
            { middle with
              staging := middle.staging.commit plain
              frames := middle.frames + 1 })
  | failed {next : ContainerReader} (e : Error) :
      reader.GoesOn next →
        Finds reader (.error e, next)

theorem Finds.behind
    {middle : ContainerReader}
    {outcome : Except Error Bool × ContainerReader}
    (hFinds : middle.Finds outcome)
    (hGoes : reader.GoesOn middle) :
    reader.Finds outcome := by
  have hLe := hGoes.remaining_le
  cases hFinds with
  | ended hNext hStage => exact .ended (hGoes.trans hNext) hStage
  | frame plain hNext hLess =>
    exact .frame plain (hGoes.trans hNext) (by omega)
  | failed e hNext => exact .failed e (hGoes.trans hNext)

/-
  With a round for each byte that is left, the loop comes to
  its end by itself: each member takes bytes from the source.
-/
theorem finds_of_readFrameRounds
    (n : Nat)
    (reader : ContainerReader)
    (hRounds : reader.source.remaining < n) :
    reader.Finds ((readFrameRounds n).perform reader) ∧
      (readFrameRounds (n + 1)).perform reader =
        (readFrameRounds n).perform reader := by
  induction n generalizing reader with
  | zero => exact absurd hRounds (Nat.not_lt_zero _)
  | succ n ih =>
    have hTurns := turns_of_round reader
    rcases hRound : round.perform reader with ⟨result, next⟩
    rw [hRound] at hTurns
    rw [perform_readFrameRounds n hRound,
      perform_readFrameRounds (n + 1) hRound]
    cases hTurns with
    | ended hGoes hStage => exact ⟨.ended hGoes hStage, rfl⟩
    | frame plain hGoes hLess =>
      exact ⟨.frame plain hGoes hLess, rfl⟩
    | failed e hGoes => exact ⟨.failed e hGoes, rfl⟩
    | member hGoes hLess =>
      rcases ih next (by omega) with ⟨hFinds, hMore⟩
      exact ⟨hFinds.behind hGoes, hMore⟩

/- More rounds than there are bytes make no difference. -/
theorem perform_readFrameRounds_of_more
    (n : Nat)
    (reader : ContainerReader)
    (hRounds : reader.source.remaining < n) :
    (readFrameRounds n).perform reader =
      (readFrameRounds (reader.source.remaining + 1)).perform
        reader := by
  obtain ⟨more, rfl⟩ := Nat.exists_eq_add_of_le hRounds
  induction more with
  | zero => rfl
  | succ more ih =>
    rw [← ih (Nat.le_add_right _ _)]
    exact
      (finds_of_readFrameRounds _ reader
        (Nat.le_add_right _ _)).2

/- A call drops what is ready, and then looks for a frame. -/
theorem finds_of_readFrame
    (reader : ContainerReader) :
    Finds { reader with staging := reader.staging.clear }
      (readFrame.perform reader) :=
  (finds_of_readFrameRounds _
    { reader with staging := reader.staging.clear }
    (Nat.lt_succ_self _)).1

end ContainerReader

end SplitStream
