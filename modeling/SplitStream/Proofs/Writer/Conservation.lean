import Mathlib
import SplitStream.Proofs.Codec.Lossless
import SplitStream.Proofs.Writer.Simulation

/-
  Conservation of written bytes. Regroupers are called any
  number of times while their codec refuses blocks and their
  emission fails. What left with the emitted blocks and what
  is held are the bytes that were taken, in order; and a full
  block that is held is one that was just refused, and is the
  next to be tried.

  Main declarations:
    * `Offer`
    * `Emission.noting`
    * `Regrouper.Call`
    * `Regrouper.History`
    * `Regrouper.Balked`
    * `Regrouper.Call.Retries`
    * `Regrouper.Turn`
    * `Regrouper.run_conserves`
-/

------------------------------------------------------------
-- Offers
------------------------------------------------------------

namespace SplitStream

variable {σ : Type}

/-
  A block that was handed to an emission, as it was written
  and as it was packed, and what came of it.
-/
structure Offer where
  block : Bytes
  packed : Bytes
  result : Except Error Unit

/- The bytes that have left with an offer. -/
def Offer.passed
    (offer : Offer) : Bytes :=
  match offer.result with
  | .ok () => offer.block
  | .error _ => []

/- The emission that also notes what it is handed. -/
def Emission.noting
    (emit : Emission σ) : Emission (σ × List Offer) :=
  fun block packed =>
    .ofStep fun (s, offers) =>
      let (result, t) := (emit block packed).perform s
      (result, t, offers ++ [⟨block, packed, result⟩])

/- A world, and itself with a list of proper offers. -/
def Noted
    (Proper : Offer → Prop)
    (s : σ)
    (noted : σ × List Offer) : Prop :=
  s = noted.1 ∧ ∀ offer ∈ noted.2, Proper offer

/- Taking notes changes nothing. -/
theorem Emission.simulates_noting
    (emit : Emission σ)
    {Proper : Offer → Prop}
    {block packed : Bytes}
    (hProper : ∀ result, Proper ⟨block, packed, result⟩) :
    Step.Simulates (fun _ => True) (Noted Proper)
      (fun _ _ => False)
      (emit block packed) (emit.noting block packed) := by
  rintro s ⟨_, offers⟩ ⟨rfl, hOffers⟩
  left
  refine
    ⟨((emit block packed).perform s).1,
      ((emit block packed).perform s).2, _, rfl, rfl,
      ⟨rfl, ?_⟩, fun _ _ => trivial⟩
  intro offer hOffer
  rcases List.mem_append.mp hOffer with hOld | hNew
  · exact hOffers offer hOld
  · rw [List.mem_singleton.mp hNew]
    exact hProper _

/- The blocks that have left are those of some contents. -/
def Passed
    (contents : List PackedBlock)
    (noted : σ × List Offer) : Prop :=
  noted.2.flatMap Offer.passed =
    contents.flatMap PackedBlock.block

/- The notes tell which blocks have left. -/
theorem Emission.extends_noting
    (emit : Emission σ) :
    emit.noting.Extends (fun _ => True) Passed
      (fun _ => True) := by
  rintro contents content ⟨s, offers⟩ hPassed _ _
  have hBefore :
      offers.flatMap Offer.passed =
        contents.flatMap PackedBlock.block :=
    hPassed
  simp only [noting, Step.perform_ofStep, Passed,
    List.flatMap_append, hBefore, List.flatMap_singleton]
  cases (emit content.block content.packed).perform s with
  | mk result t =>
    cases result with
    | ok _ =>
      left
      exact ⟨rfl, rfl⟩
    | error e =>
      right
      exact ⟨e, rfl, trivial, List.append_nil _⟩

------------------------------------------------------------
-- Calls
------------------------------------------------------------

namespace Regrouper

/- The calls that regroup bytes. -/
inductive Call where
  | write (data : Bytes)
  | flush
  deriving DecidableEq

namespace Call

/- What a call does. -/
def action
    (emit : Emission σ) : Call → Action (Regrouper × σ) Unit
  | write data => Regrouper.write emit data
  | flush => Regrouper.flush emit

/- The bytes that a call offers to the regrouper. -/
def offered : Call → Bytes
  | write data => data
  | flush => []

/- Writes emit full blocks, and flushes emit no empty one. -/
def Cuts
    (call : Call)
    (blockSize : Nat)
    (block : Bytes) : Prop :=
  match call with
  | write _ => block.length = blockSize
  | flush => 1 ≤ block.length ∧ block.length ≤ blockSize

/-
  The number of blocks handed to the codec is bounded: by the
  full blocks that there are bytes for, or by one.
-/
def Bounds
    (call : Call)
    (blockSize pending attempts : Nat) : Prop :=
  match call with
  | write data => attempts * blockSize ≤ pending + data.length
  | flush => attempts ≤ 1

end Call

/-
  A call that was made: its result, the blocks that it handed
  to the emission, the bytes that it took, the number of
  bytes held before it, and the number of blocks that it
  handed to the codec.
-/
structure Entry where
  call : Call
  result : Except Error Unit
  offers : List Offer
  accepted : Bytes
  pending : Nat
  attempts : Nat

/-
  The entry for a call. What the call took is what has left
  or is held, but for what was held before.
-/
def Entry.of
    (before after : Regrouper)
    (call : Call)
    (result : Except Error Unit)
    (offers : List Offer) : Entry where
  call := call
  result := result
  offers := offers
  accepted :=
    (offers.flatMap Offer.passed ++
      after.held.toBytes).drop before.pending
  pending := before.pending
  attempts := after.attempts - before.attempts

/- A regrouper, its world, and the calls that were made. -/
structure History
    (σ : Type) where
  regrouper : Regrouper
  world : σ
  entries : List Entry

namespace History

/- No call has been made yet. -/
def opened
    (regrouper : Regrouper)
    (world : σ) : History σ where
  regrouper := regrouper
  world := world
  entries := []

/- Make one call. -/
def step
    (emit : Emission σ)
    (history : History σ)
    (call : Call) : History σ :=
  let before := history.regrouper
  let (result, after, world) :=
    (call.action emit).perform (before, history.world)
  let offers :=
    ((call.action emit.noting).perform
      (before, history.world, [])).2.2.2
  { regrouper := after
    world := world
    entries :=
      history.entries ++ [.of before after call result offers] }

/- Make one call after another. -/
def run
    (emit : Emission σ)
    (history : History σ)
    (calls : List Call) : History σ :=
  calls.foldl (step emit) history

/- The bytes that were taken by all calls. -/
def accepted
    (history : History σ) : Bytes :=
  history.entries.flatMap Entry.accepted

/- The bytes of the blocks that were emitted. -/
def emitted
    (history : History σ) : Bytes :=
  history.entries.flatMap fun entry =>
    entry.offers.flatMap Offer.passed

end History

------------------------------------------------------------
-- Single Calls
------------------------------------------------------------

/-
  The last attempt to emit what is held has failed, and has
  left the regrouper and the world as they are.
-/
def Balked
    (emit : Emission σ)
    (regrouper : Regrouper)
    (world : σ) : Prop :=
  ∃ (before : Regrouper) (s : σ) (e : Error),
    before.held = regrouper.held ∧
    before.compressBlock emit regrouper.held.toBytes s =
      (.error e, regrouper, world)

/- A call tries the block that is held before all else. -/
def Call.Retries
    (call : Call)
    (emit : Emission σ)
    (regrouper : Regrouper)
    (world : σ) : Prop :=
  (call.action emit).perform (regrouper, world) =
    match regrouper.compressBlock emit
        regrouper.held.toBytes world with
    | (.error e, next, t) => (.error e, next, t)
    | (.ok (), next, t) =>
        (call.action emit).perform (next.emptied, t)

/-
  A regrouper at rest: a full block is held only if it was
  just refused.
-/
structure Rests
    (emit : Emission σ)
    (regrouper : Regrouper)
    (world : σ) : Prop where
  held_le : regrouper.held.size ≤ regrouper.blockSize
  balked :
    regrouper.held.size = regrouper.blockSize →
      Balked emit regrouper world

theorem rests_of_lt
    {emit : Emission σ}
    {regrouper : Regrouper}
    {world : σ}
    (hLt : regrouper.held.size < regrouper.blockSize) :
    Rests emit regrouper world where
  held_le := Nat.le_of_lt hLt
  balked hFull := absurd hFull (Nat.ne_of_lt hLt)

theorem rests_of_none
    {emit : Emission σ}
    {regrouper : Regrouper}
    {world : σ}
    (hHeld : regrouper.held.size = 0) :
    Rests emit regrouper world :=
  rests_of_lt (hHeld ▸ regrouper.blockSize_pos)

/- What is held after a failed attempt at it was refused. -/
theorem rests_of_error
    {emit : Emission σ}
    {regrouper : Regrouper}
    {block : Bytes}
    {outcome : Except Error Bytes}
    {s t : σ}
    {e : Error}
    (hLe : regrouper.held.size ≤ regrouper.blockSize)
    (hBlock : regrouper.held.toBytes = block)
    (hPacks : regrouper.Packs block outcome)
    (hError :
      (ofExcept outcome >>= emit block).perform s =
        (.error e, t)) :
    Rests emit (regrouper.spent block) t where
  held_le := hLe
  balked _ := by
    have hCompress := hPacks.compress emit s
    rw [hError] at hCompress
    refine ⟨regrouper, s, e, rfl, ?_⟩
    rw [held_spent, hBlock]
    exact hCompress

/- Writes leave a regrouper at rest. -/
theorem rests_write
    (emit : Emission σ)
    (data : Bytes)
    (regrouper : Regrouper)
    (s : σ)
    (hRests : Rests emit regrouper s) :
    Rests emit (writeFrom emit data regrouper s).2.1
      (writeFrom emit data regrouper s).2.2 := by
  induction data, regrouper using rounds generalizing s with
  | hLacking data regrouper hLacking =>
    rw [writeFrom_of_lacking emit hLacking]
    by_cases hSome : data = []
    · rw [hSome, holding_nil]
      exact hRests
    · have hShort : data.length < regrouper.missing := by
        rw [← Nat.not_le]
        exact fun hMissing => hLacking ⟨hSome, hMissing⟩
      apply rests_of_lt
      simp only [holding, Tape.size_append, missing] at hShort ⊢
      omega
  | hCompletes data regrouper hCompletes ih =>
    rcases writeFrom_of_completes hCompletes with
      ⟨outcome, hPacks, hRound⟩
    rw [hRound]
    cases hEmission :
      (ofExcept outcome >>=
        emit (regrouper.completed data)).perform s with
    | mk result t =>
      cases result with
      | ok _ =>
        have hKin := (regrouper.kin_tried data).trans (kin_emptied _)
        exact ih _ hKin rfl t (rests_of_none rfl)
      | error e =>
        by_cases hHeld : regrouper.held.size = 0
        · apply rests_of_none
          rw [tried, held_spent, offering_of_none data hHeld, hHeld]
        · have hBlock := held_offering data hHeld
          apply rests_of_error _ hBlock hPacks hEmission
          rw [Tape.size_eq_length, hBlock,
            hCompletes.length hRests.held_le]
          exact Nat.le_of_eq
            (regrouper.kin_offering data).blockSize.symm

/- So do flushes. -/
theorem rests_flush
    (emit : Emission σ)
    (regrouper : Regrouper)
    (s : σ)
    (hRests : Rests emit regrouper s) :
    Rests emit ((flush emit).perform (regrouper, s)).2.1
      ((flush emit).perform (regrouper, s)).2.2 := by
  by_cases hHeld : regrouper.held.size = 0
  · rw [flush_of_none emit hHeld]
    exact hRests
  · rcases flush_of_some hHeld with ⟨outcome, hPacks, hFlush⟩
    rw [hFlush]
    cases hEmission :
      (ofExcept outcome >>=
        emit regrouper.held.toBytes).perform s with
    | mk result t =>
      cases result with
      | ok _ => exact rests_of_none rfl
      | error e =>
        exact rests_of_error hRests.held_le rfl hPacks hEmission

/-
  A full block that is held is the first to be tried: no
  bytes are missing, so it is what a round completes.
-/
theorem Call.retries_of_full
    (emit : Emission σ)
    {regrouper : Regrouper}
    (hFull : regrouper.held.size = regrouper.blockSize)
    {call : Call}
    (hCall : call ≠ .write [])
    (s : σ) :
    call.Retries emit regrouper s := by
  have hHeld : regrouper.held.size ≠ 0 :=
    hFull ▸ Nat.ne_of_gt regrouper.blockSize_pos
  unfold Retries
  cases call with
  | write data =>
    have hMissing : regrouper.missing = 0 := by
      rw [missing, hFull, Nat.sub_self]
    have hCompletes : regrouper.Completes data :=
      ⟨fun hNil => hCall (hNil ▸ rfl), hMissing ▸ Nat.zero_le _⟩
    have hOffering : regrouper.offering data = regrouper := by
      rw [offering_of_some data hHeld, hMissing]
      rfl
    have hBlock :
        regrouper.completed data = regrouper.held.toBytes := by
      rw [completed, hMissing, List.take_zero, List.append_nil]
    rcases writeFrom_of_completes hCompletes with
      ⟨outcome, hPacks, hRound⟩
    simp only [tried, hOffering, hBlock, hMissing,
      List.drop_zero] at hPacks hRound
    simp only [action, Regrouper.write, Step.perform_ofStep]
    rw [hRound, hPacks.compress]
    rcases (ofExcept outcome >>= emit _).perform s with
      ⟨_ | _, _⟩
    · rfl
    · rfl
  | flush =>
    rcases flush_of_some hHeld with ⟨outcome, hPacks, hFlush⟩
    simp only [action]
    rw [hFlush, hPacks.compress]
    rcases (ofExcept outcome >>= emit _).perform s with
      ⟨_ | _, _⟩
    · rfl
    · exact (flush_of_none emit rfl _).symm

/- Every round of a write uses up the bytes of one block. -/
theorem attempts_write
    (emit : Emission σ)
    (data : Bytes)
    (regrouper : Regrouper)
    (s : σ)
    (hLe : regrouper.held.size ≤ regrouper.blockSize) :
    (writeFrom emit data regrouper s).2.1.attempts *
        regrouper.blockSize ≤
      regrouper.attempts * regrouper.blockSize +
        regrouper.held.size + data.length := by
  induction data, regrouper using rounds generalizing s with
  | hLacking data regrouper hLacking =>
    rw [writeFrom_of_lacking emit hLacking, Nat.add_assoc]
    exact Nat.le_add_right _ _
  | hCompletes data regrouper hCompletes ih =>
    rcases writeFrom_of_completes hCompletes with
      ⟨outcome, hPacks, hRound⟩
    have hMissing := hCompletes.missing_le
    have hBlock :
        regrouper.held.size + regrouper.missing =
          regrouper.blockSize := by
      rw [missing]
      omega
    have hSpent :
        (regrouper.attempts + 1) * regrouper.blockSize ≤
          regrouper.attempts * regrouper.blockSize +
            regrouper.held.size + data.length := by
      rw [Nat.add_mul, Nat.one_mul]
      omega
    rw [hRound]
    cases (ofExcept outcome >>=
        emit (regrouper.completed data)).perform s with
    | mk result t =>
      cases result with
      | error e =>
        rw [attempts_tried]
        exact hSpent
      | ok _ =>
        have hKin := (regrouper.kin_tried data).trans (kin_emptied _)
        have hRest := ih _ hKin rfl t (Nat.zero_le _)
        have hAttempts :
            (regrouper.tried data).emptied.attempts =
              regrouper.attempts + 1 :=
          regrouper.attempts_tried data
        have hNone : (regrouper.tried data).emptied.held.size = 0 :=
          rfl
        rw [hKin.blockSize, hAttempts, hNone, List.length_drop,
          Nat.add_mul, Nat.one_mul] at hRest
        dsimp only
        omega

/- The number of attempts that a call makes is bounded. -/
theorem Call.bounds
    (emit : Emission σ)
    (call : Call)
    (regrouper : Regrouper)
    (s : σ)
    (hLe : regrouper.held.size ≤ regrouper.blockSize) :
    call.Bounds regrouper.blockSize regrouper.pending
      (((call.action emit).perform (regrouper, s)).2.1.attempts -
        regrouper.attempts) := by
  cases call with
  | write data =>
    have hAttempts := attempts_write emit data regrouper s hLe
    simp only [Bounds, action, Regrouper.write, pending,
      Step.perform_ofStep, Nat.sub_mul]
    omega
  | flush =>
    simp only [Bounds, action]
    by_cases hHeld : regrouper.held.size = 0
    · rw [flush_of_none emit hHeld, Nat.sub_self]
      exact Nat.zero_le _
    · rcases flush_of_some hHeld with ⟨outcome, _, hFlush⟩
      rw [hFlush]
      rcases (ofExcept outcome >>= emit _).perform s with
        ⟨_ | _, _⟩
      · exact Nat.le_of_eq (Nat.add_sub_cancel_left _ _)
      · exact Nat.le_of_eq (Nat.add_sub_cancel_left _ _)

/- A block of the right size, packed into the buffer. -/
structure Call.Fits
    (call : Call)
    (regrouper : Regrouper)
    (offer : Offer) : Prop where
  cuts : call.Cuts regrouper.blockSize offer.block
  packed_le : offer.packed.length ≤ regrouper.room

/- A call goes the same way while notes are taken. -/
theorem Call.perform_noting
    (emit : Emission σ)
    (call : Call)
    {regrouper next : Regrouper}
    {s t : σ}
    {result : Except Error Unit}
    (hLe : regrouper.held.size ≤ regrouper.blockSize)
    (hCall :
      (call.action emit).perform (regrouper, s) =
        (result, next, t)) :
    ∃ offers,
      (call.action emit.noting).perform (regrouper, s, []) =
        (result, next, t, offers) ∧
      ∀ offer ∈ offers, call.Fits regrouper offer := by
  have hMatched :
      Step.Matched (fun _ => True)
        (Beside (Noted (call.Fits regrouper)))
        (LostBeside fun _ _ => False)
        ((call.action emit).perform (regrouper, s))
        ((call.action emit.noting).perform
          (regrouper, s, [])) := by
    have hNoted :
        Noted (call.Fits regrouper) s (s, []) := by
      refine ⟨rfl, ?_⟩
      intro offer hOffer
      cases hOffer
    cases call with
    | write data =>
      apply writeFrom_matched data regrouper
        (fun _ _ => trivial) _ s (s, []) hNoted
      intro block packed hLength hMakes
      apply emit.simulates_noting
      intro result
      exact ⟨hLength hLe, hMakes.length_le⟩
    | flush =>
      apply flush_matched regrouper
        (fun _ _ => trivial) _ s (s, []) hNoted
      intro packed hHeld hMakes
      apply emit.simulates_noting
      intro result
      refine ⟨?_, hMakes.length_le⟩
      rw [Tape.size_eq_length] at hHeld hLe
      exact ⟨Nat.one_le_iff_ne_zero.mpr hHeld, hLe⟩
  rcases hMatched with
    ⟨_, ⟨_, _⟩, ⟨_, _, offers⟩, hLeft, hRight,
      ⟨rfl, rfl, hFits⟩, _⟩ |
      ⟨_, _, _, hLost⟩
  · rw [hCall] at hLeft
    cases hLeft
    exact ⟨offers, hRight, hFits⟩
  · exact hLost.elim

/-
  What a call does with the bytes: some of the offered ones
  are taken, and with those held before they are the bytes of
  the blocks that have left and those held after.
-/
structure Turn
    (regrouper next : Regrouper)
    (call : Call)
    (result : Except Error Unit)
    (offers : List Offer)
    (taken : Nat) : Prop where
  kin : regrouper.Kin next
  taken_le : taken ≤ call.offered.length
  bytes :
    regrouper.held.toBytes ++ call.offered.take taken =
      offers.flatMap Offer.passed ++ next.held.toBytes
  all : result = .ok () → taken = call.offered.length

theorem Call.exists_turn
    (emit : Emission σ)
    (call : Call)
    {regrouper next : Regrouper}
    {s t : σ}
    {result : Except Error Unit}
    {offers : List Offer}
    (hSize : regrouper.blockSize ≤ maxBlockSize)
    (hLe : regrouper.held.size ≤ regrouper.blockSize)
    (hCall :
      (call.action emit.noting).perform (regrouper, s, []) =
        (result, next, t, offers)) :
    ∃ taken,
      regrouper.Turn next call result offers taken := by
  have hNone : Passed [] (s, ([] : List Offer)) := rfl
  cases call with
  | write data =>
    rcases writes_of_extends data emit.extends_noting
      (fun _ _ => trivial) hSize hLe hNone with
      ⟨_, _, _, taken, added, hWrite, hIntake, hPassed, hAll, _⟩
    cases hCall.symm.trans hWrite
    refine ⟨taken, hIntake.kin, hIntake.taken_le, ?_, hAll⟩
    have hBlocks : offers.flatMap Offer.passed =
        added.flatMap PackedBlock.block := hPassed
    rw [hBlocks]
    exact hIntake.bytes
  | flush =>
    rcases flush_of_extends emit.extends_noting
      (fun _ _ => trivial) hSize hLe hNone with
      ⟨_, _, _, added, hFlush, hKin, _, hPassed, hBytes, _, _⟩
    cases hCall.symm.trans hFlush
    refine ⟨0, hKin, Nat.zero_le _, ?_, fun _ => rfl⟩
    have hBlocks : offers.flatMap Offer.passed =
        added.flatMap PackedBlock.block := hPassed
    rw [List.take_zero, List.append_nil, hBlocks]
    exact hBytes

------------------------------------------------------------
-- Histories
------------------------------------------------------------

/-
  An entry is sound: a prefix of what was offered was taken,
  all of it after a success, and each block that was handed
  over had its size and was packed into the buffer.
-/
structure Entry.Sound
    (codec : Codec)
    (blockSize : Nat)
    (entry : Entry) : Prop where
  accepted_prefix : entry.accepted <+: entry.call.offered
  accepted_all :
    entry.result = .ok () →
      entry.accepted = entry.call.offered
  cuts :
    ∀ offer ∈ entry.offers, entry.call.Cuts blockSize offer.block
  packed_le :
    ∀ offer ∈ entry.offers,
      offer.packed.length ≤ blockSize + codec.overhead blockSize
  bounds :
    entry.call.Bounds blockSize entry.pending entry.attempts

/- What holds between the calls. -/
structure History.Upholds
    (emit : Emission σ)
    (codec : Codec)
    (blockSize : Nat)
    (history : History σ) : Prop where
  codec_eq : history.regrouper.codec = codec
  blockSize_eq : history.regrouper.blockSize = blockSize
  rests : Rests emit history.regrouper history.world
  bytes :
    history.emitted ++ history.regrouper.held.toBytes =
      history.accepted
  sound : ∀ entry ∈ history.entries, entry.Sound codec blockSize

theorem Turn.sound
    {before after : Regrouper}
    {call : Call}
    {result : Except Error Unit}
    {offers : List Offer}
    {taken : Nat}
    (h : before.Turn after call result offers taken)
    (hFits : ∀ offer ∈ offers, call.Fits before offer)
    (hBounds :
      call.Bounds before.blockSize before.pending
        (after.attempts - before.attempts)) :
    (Entry.of before after call result offers).accepted =
        call.offered.take taken ∧
      (Entry.of before after call result offers).Sound
        before.codec before.blockSize := by
  have hAccepted :
      (Entry.of before after call result offers).accepted =
        call.offered.take taken := by
    rw [Entry.of, ← h.bytes, pending, Tape.size_eq_length,
      List.drop_left]
  refine ⟨hAccepted, ?_, ?_, ?_, ?_, hBounds⟩
  · rw [hAccepted]
    exact List.take_prefix _ _
  · intro hOk
    rw [hAccepted, h.all hOk]
    exact List.take_length
  · exact fun offer hOffer => (hFits offer hOffer).cuts
  · exact fun offer hOffer => (hFits offer hOffer).packed_le

/- Calls leave a regrouper at rest. -/
theorem Call.rests
    (emit : Emission σ)
    (call : Call)
    {regrouper next : Regrouper}
    {s t : σ}
    {result : Except Error Unit}
    (hRests : Rests emit regrouper s)
    (hCall :
      (call.action emit).perform (regrouper, s) =
        (result, next, t)) :
    Rests emit next t := by
  have hAfter :
      Rests emit ((call.action emit).perform (regrouper, s)).2.1
        ((call.action emit).perform (regrouper, s)).2.2 := by
    cases call with
    | write data => exact rests_write emit data regrouper s hRests
    | flush => exact rests_flush emit regrouper s hRests
  rw [hCall] at hAfter
  exact hAfter

theorem History.Upholds.step
    {emit : Emission σ}
    {codec : Codec}
    {blockSize : Nat}
    {history : History σ}
    (h : history.Upholds emit codec blockSize)
    (hSize : blockSize ≤ maxBlockSize)
    (call : Call) :
    (history.step emit call).Upholds emit codec blockSize := by
  rcases history with ⟨before, s, entries⟩
  rcases h with ⟨rfl, rfl, hRests, hBytes, hSound⟩
  dsimp only at hRests hBytes hSound hSize ⊢
  cases hCall : (call.action emit).perform (before, s) with
  | mk result rest =>
    rcases rest with ⟨after, t⟩
    rcases call.perform_noting emit hRests.held_le hCall with
      ⟨offers, hNoting, hFits⟩
    rcases call.exists_turn emit hSize hRests.held_le hNoting with
      ⟨taken, hTurn⟩
    have hBounds := call.bounds emit before s hRests.held_le
    rw [hCall] at hBounds
    rcases hTurn.sound hFits hBounds with ⟨hAccepted, hEntry⟩
    have hStep :
        History.step emit ⟨before, s, entries⟩ call =
          ⟨after, t,
            entries ++ [.of before after call result offers]⟩ := by
      simp only [History.step, hCall, hNoting]
    rw [hStep]
    refine
      ⟨hTurn.kin.codec, hTurn.kin.blockSize,
        call.rests emit hRests hCall, ?_, ?_⟩
    · simp only [emitted, accepted, List.flatMap_append,
        List.flatMap_singleton] at hBytes ⊢
      rw [hAccepted, ← hBytes, List.append_assoc,
        List.append_assoc, hTurn.bytes]
      rfl
    · intro entry hMem
      rcases List.mem_append.mp hMem with hOld | hNew
      · exact hSound entry hOld
      · rw [List.mem_singleton.mp hNew]
        exact hEntry

theorem History.Upholds.run
    {emit : Emission σ}
    {codec : Codec}
    {blockSize : Nat}
    {history : History σ}
    (h : history.Upholds emit codec blockSize)
    (hSize : blockSize ≤ maxBlockSize)
    (calls : List Call) :
    (history.run emit calls).Upholds emit codec blockSize := by
  induction calls generalizing history with
  | nil => exact h
  | cons call calls ih => exact ih (h.step hSize call)

/- A new regrouper holds nothing. -/
theorem upholds_opened
    (emit : Emission σ)
    {codec : Codec}
    {blockSize : Nat}
    {regrouper : Regrouper}
    (hNew : new codec blockSize = .ok regrouper)
    (world : σ) :
    (History.opened regrouper world).Upholds emit codec
        blockSize ∧
      blockSize ≤ maxBlockSize := by
  by_cases hSize : 0 < blockSize ∧ blockSize ≤ maxBlockSize
  · rw [new, dif_pos hSize] at hNew
    cases hNew
    refine ⟨⟨rfl, rfl, rests_of_none rfl, rfl, ?_⟩, hSize.2⟩
    intro entry hEntry
    cases hEntry
  · rw [new, dif_neg hSize] at hNew
    cases hNew

/-
  Whatever the codec and the emission do, no byte is lost,
  repeated or moved. A block's worth of bytes is held only
  while the last attempt to emit it has failed, and then any
  call but an empty write tries it again first.
-/
theorem run_conserves
    {codec : Codec}
    {blockSize : Nat}
    {regrouper : Regrouper}
    (hNew : new codec blockSize = .ok regrouper)
    (emit : Emission σ)
    (world : σ)
    (calls : List Call) :
    let history := (History.opened regrouper world).run emit calls
    (∀ entry ∈ history.entries, entry.Sound codec blockSize) ∧
    history.emitted ++ history.regrouper.held.toBytes =
      history.accepted ∧
    history.regrouper.pending ≤ blockSize ∧
    (history.regrouper.pending = blockSize →
      Balked emit history.regrouper history.world ∧
      ∀ call : Call,
        call ≠ .write [] →
          call.Retries emit history.regrouper history.world) := by
  intro history
  rcases upholds_opened emit hNew world with ⟨hOpened, hSize⟩
  have hUpholds : history.Upholds emit codec blockSize :=
    hOpened.run hSize calls
  have hLe := hUpholds.rests.held_le
  refine ⟨hUpholds.sound, hUpholds.bytes, ?_, ?_⟩
  · rw [← hUpholds.blockSize_eq]
    exact hLe
  · intro hFull
    rw [← hUpholds.blockSize_eq] at hFull
    refine ⟨hUpholds.rests.balked hFull, ?_⟩
    intro call hCall
    exact call.retries_of_full emit hFull hCall history.world

/- An emission that succeeds and fails as it is told to. -/
def scripted : Emission (List Bool) :=
  fun _ _ =>
    .ofStep fun
      | true :: rest => (.ok (), rest)
      | false :: rest => (.error (.io .brokenPipe), rest)
      | [] => (.ok (), [])

/-
  Blocks of two bytes: the codec refuses the second one, and
  the emission refuses it when it is tried again.
-/
theorem run_conserves_refused :
    ∃ regrouper,
      new (Codec.stored.refusingAt 1) 2 = .ok regrouper ∧
      let history :=
        (History.opened regrouper [true, false]).run scripted
          [.write [1, 2, 3], .write [4], .write [5]]
      history.regrouper.pending = 2 ∧
      history.accepted = [1, 2, 3, 4] ∧
      history.emitted ++ history.regrouper.held.toBytes =
        history.accepted ∧
      Balked scripted history.regrouper history.world ∧
      Call.flush.Retries scripted history.regrouper
        history.world := by
  have hView :
      (new (Codec.stored.refusingAt 1) 2).map
          (fun regrouper =>
            let history :=
              (History.opened regrouper [true, false]).run scripted
                [.write [1, 2, 3], .write [4], .write [5]]
            (history.regrouper.pending, history.accepted)) =
        .ok (2, [1, 2, 3, 4]) := by
    cbv
  cases hNew : new (Codec.stored.refusingAt 1) 2 with
  | error e =>
    rw [hNew] at hView
    cases hView
  | ok regrouper =>
    rw [hNew] at hView
    rcases Prod.mk.inj (Except.ok.inj hView) with
      ⟨hPending, hAccepted⟩
    rcases run_conserves hNew scripted [true, false]
      [.write [1, 2, 3], .write [4], .write [5]] with
      ⟨_, hBytes, _, hFull⟩
    rcases hFull hPending with ⟨hBalked, hRetries⟩
    exact
      ⟨regrouper, rfl, hPending, hAccepted, hBytes, hBalked,
        hRetries .flush (by simp)⟩

end Regrouper

end SplitStream
