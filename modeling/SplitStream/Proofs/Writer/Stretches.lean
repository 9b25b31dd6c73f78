import SplitStream.Proofs.Writer.Division
import SplitStream.Proofs.Writer.Sessions

/-
  Calls in stretches. A stretch is what calls carry up to the
  next flush, finish or reset. Where no write fails but those
  that a closed writer refuses, the calls of a stretch do
  what one write of its bytes does, so that all that is seen
  at the ends of the stretches depends on these only; and
  the blocks that a stretch lays out are full ones, with what
  is left as a shorter last one.

  Main declarations:
    * `Call.stretches`
    * `Course.sights`
    * `Bytes.DividedInto`
    * `Bytes.DividedInto.block_eq`
    * `FrameWriter.Divides`
    * `FrameWriter.Divides.sights_eq`
    * `FrameWriter.Divides.blocks_of_stretch`
    * `FrameWriter.Divides.dividesAlike`
-/

------------------------------------------------------------
-- Stretches
------------------------------------------------------------

namespace SplitStream

namespace Call

/- The calls at which blocks end: a flush, finish or reset. -/
def isPoint : Call → Bool
  | write _ => false
  | writeRange _ _ _ => false
  | flush => true
  | finish => true
  | reset => true

/-
  The bytes that a call carries to the writer. A range that
  does not lie in its buffer carries none.
-/
def carried : Call → Bytes
  | write data => data
  | writeRange buffer offset length =>
      if offset + length ≤ buffer.length then
        (buffer.drop offset).take length
      else
        []
  | _ => []

/- Bytes, and the point at which they end. -/
structure Stretch where
  bytes : Bytes
  point : Call
  deriving DecidableEq

/-
  The stretches of calls, behind bytes carried before.  What
  is carried behind the last point is in none of them.
-/
def stretchesFrom
    (bytes : Bytes) : List Call → List Stretch
  | [] => []
  | call :: calls =>
      if call.isPoint then
        ⟨bytes, call⟩ :: stretchesFrom [] calls
      else
        stretchesFrom (bytes ++ call.carried) calls

/- The stretches of calls. -/
def stretches
    (calls : List Call) : List Stretch :=
  stretchesFrom [] calls

/-
  A call that is no point writes what it carries, or carries
  nothing and is refused.
-/
theorem perform_of_plain
    {ω : Type}
    {W : Type → Type}
    [FrameWriter W]
    {call : Call}
    (hPlain : call.isPoint = false)
    (s : W ω × ω) :
    (call.action.perform s =
        (FrameWriter.write call.carried).perform s ∧
      call.offered = call.carried) ∨
      call.carried = [] ∧
        ∃ e, call.action.perform s = (.error e, s) := by
  cases call with
  | write data => exact .inl ⟨rfl, rfl⟩
  | writeRange buffer offset length =>
    by_cases hRange : offset + length ≤ buffer.length
    · have hCarried :
          (writeRange buffer offset length).carried =
            (buffer.drop offset).take length :=
        if_pos hRange
      rw [hCarried]
      exact .inl ⟨perform_writeRange_of_le hRange s, rfl⟩
    · exact
        .inr
          ⟨if_neg hRange, _,
            perform_writeRange_of_lt (Nat.lt_of_not_le hRange) s⟩
  | flush => cases hPlain
  | finish => cases hPlain
  | reset => cases hPlain

theorem leftOf_of_ne
    {ω : Type}
    {W : Type → Type}
    [FrameWriter W]
    {call : Call}
    (hCall : call ≠ .reset)
    (writer : W ω)
    (kept : Bytes) :
    call.leftOf writer kept = kept := by
  cases call with
  | reset => contradiction
  | write data => rfl
  | writeRange buffer offset length => rfl
  | flush => rfl
  | finish => rfl

end Call

/-
  What is seen at a point: the bytes in both sinks, and the
  counters of the writer.
-/
structure Sight where
  received : Bytes
  indexed : Bytes
  frames : Nat
  written : Nat
  pending : Nat
  deriving DecidableEq

variable {W : Type → Type} [FrameWriter W]

/- The writer and the world that a call leaves. -/
def Call.after
    {ω : Type}
    (call : Call)
    (state : W ω × ω) : W ω × ω :=
  call.action.final state

theorem Call.after_eq
    {ω : Type}
    {call : Call}
    {state next : W ω × ω}
    {result : Except Error Unit}
    (h : call.action.perform state = (result, next)) :
    call.after state = next :=
  congrArg Prod.snd h

/- What is seen of a writer and its sinks. -/
def FrameWriter.sight
    (state : W SinkPair × SinkPair) : Sight where
  received := state.2.data.contents
  indexed := state.2.index.contents
  frames := frames state.1
  written := written state.1
  pending := pending state.1

namespace Course

/- The writer of a course and its sinks. -/
def state
    {ω : Type}
    (course : Course W ω) : W ω × ω :=
  (course.writer, course.world)

/- What is seen behind each point of some calls. -/
def sights
    (course : Course W SinkPair) : List Call → List Sight
  | [] => []
  | call :: calls =>
      let next := course.step call
      if call.isPoint then
        FrameWriter.sight next.state :: next.sights calls
      else
        next.sights calls

theorem state_step
    {ω : Type}
    (course : Course W ω)
    (call : Call) :
    (course.step call).state = call.after course.state :=
  rfl

end Course

------------------------------------------------------------
-- Blocks
------------------------------------------------------------

/-
  Bytes are divided into full blocks, and a shorter last one
  for what is left.
-/
structure Bytes.DividedInto
    (size : Nat)
    (bytes : Bytes)
    (blocks : List Bytes) : Prop where
  joined : blocks.flatten = bytes
  lengths :
    blocks.map List.length =
      List.replicate (bytes.length / size) size ++
        (if bytes.length % size = 0 then
          []
        else
          [bytes.length % size])
  count : blocks.length = (bytes.length + size - 1) / size

theorem Bytes.dividedInto_nil
    {size : Nat}
    (hSize : 0 < size) :
    DividedInto size [] [] where
  joined := rfl
  lengths := by simp
  count := by
    simp only [List.length_nil, Nat.zero_add]
    exact (Nat.div_eq_of_lt (by omega)).symm

/- Full blocks and what is left of the bytes divide them. -/
theorem Bytes.dividedInto_append
    {size : Nat}
    {rest : Bytes}
    {blocks last : List Bytes}
    (hFull : ∀ block ∈ blocks, block.length = size)
    (hRest : rest.length < size)
    (hLast : last = if rest.length = 0 then [] else [rest]) :
    DividedInto size (blocks.flatten ++ rest)
      (blocks ++ last) := by
  have hLengths :
      blocks.map List.length =
        List.replicate blocks.length size := by
    rw [List.eq_replicate_iff, List.length_map]
    refine ⟨rfl, ?_⟩
    intro n hLength
    rcases List.mem_map.mp hLength with ⟨block, hBlock, rfl⟩
    exact hFull block hBlock
  have hSize :
      (blocks.flatten ++ rest).length =
        rest.length + size * blocks.length := by
    rw [List.length_append, List.length_flatten, hLengths,
      List.sum_replicate_nat, Nat.mul_comm, Nat.add_comm]
  have hDiv :
      (blocks.flatten ++ rest).length / size =
        blocks.length := by
    rw [hSize, Nat.add_mul_div_left _ _ (by omega),
      Nat.div_eq_of_lt hRest, Nat.zero_add]
  have hMod :
      (blocks.flatten ++ rest).length % size =
        rest.length := by
    rw [hSize, Nat.add_mul_mod_self_left, Nat.mod_eq_of_lt hRest]
  constructor
  · subst hLast
    split
    · rename_i hNone
      simp [List.length_eq_zero_iff.mp hNone]
    · simp
  · rw [hDiv, hMod, List.map_append, hLengths, hLast]
    split
    · rfl
    · rfl
  · rw [hSize, hLast]
    split
    · rename_i hNone
      rw [hNone, Nat.zero_add, List.append_nil, Nat.add_sub_assoc
          (by omega), Nat.mul_add_div (by omega),
        Nat.div_eq_of_lt (by omega), Nat.add_zero]
    · have hRound :
          rest.length + size * blocks.length + size - 1 =
            size * (blocks.length + 1) + (rest.length - 1) := by
        rw [Nat.mul_succ]
        omega
      rw [hRound, Nat.mul_add_div (by omega),
        Nat.div_eq_of_lt (by omega), Nat.add_zero,
        List.length_append]
      rfl

/- All blocks are full, but for a last one for what is left. -/
theorem Bytes.DividedInto.length_block
    {size : Nat}
    {bytes : Bytes}
    {blocks : List Bytes}
    (h : DividedInto size bytes blocks)
    {i : Nat}
    (hLess : i < blocks.length) :
    blocks[i].length =
      if i < bytes.length / size then
        size
      else
        bytes.length % size := by
  have hSame :
      (blocks.map List.length)[i]? = some blocks[i].length := by
    simp [hLess]
  rw [h.lengths, List.getElem?_append, List.length_replicate]
    at hSame
  split at hSame
  · rename_i hFull
    rw [if_pos hFull]
    rw [List.getElem?_replicate, if_pos hFull] at hSame
    exact (Option.some.inj hSame).symm
  · rename_i hLast
    rw [if_neg hLast]
    split at hSame
    · cases hSame
    · rcases List.getElem?_eq_some_iff.mp hSame with ⟨_, hRest⟩
      simpa using hRest.symm

/- A block is found behind the full blocks before it. -/
theorem Bytes.drop_flatten_take
    {size : Nat}
    {front back : List Bytes}
    {block : Bytes}
    (hFront : ∀ other ∈ front, other.length = size)
    (hBlock :
      block.length = size ∨ back = [] ∧ block.length ≤ size) :
    (((front ++ block :: back).flatten).drop
        (front.length * size)).take size =
      block := by
  have hLength :
      front.flatten.length = front.length * size := by
    have hAll :
        front.map List.length =
          List.replicate front.length size := by
      rw [List.eq_replicate_iff, List.length_map]
      refine ⟨rfl, ?_⟩
      intro n hMem
      rcases List.mem_map.mp hMem with ⟨other, hOther, rfl⟩
      exact hFront other hOther
    rw [List.length_flatten, hAll, List.sum_replicate_nat]
  rw [List.flatten_append, ← hLength, List.drop_left,
    List.flatten_cons]
  rcases hBlock with hFull | ⟨rfl, hShort⟩
  · rw [← hFull, List.take_left]
  · rw [List.flatten_nil, List.append_nil,
      List.take_of_length_le hShort]

theorem Bytes.DividedInto.block_eq
    {size : Nat}
    {bytes : Bytes}
    {blocks : List Bytes}
    (h : DividedInto size bytes blocks)
    (hSize : 0 < size)
    {k : Nat}
    {block : Bytes}
    (hBlock : blocks[k]? = some block) :
    block = (bytes.drop (k * size)).take size := by
  rcases List.getElem?_eq_some_iff.mp hBlock with
    ⟨hInside, hEq⟩
  have hSplit :
      blocks = blocks.take k ++ block :: blocks.drop (k + 1) := by
    rw [← hEq, List.getElem_cons_drop, List.take_append_drop]
  have hMod : bytes.length % size < size := Nat.mod_lt _ hSize
  have hCount : blocks.length ≤ bytes.length / size + 1 := by
    have hSame := congrArg List.length h.lengths
    rw [List.length_map, List.length_append,
      List.length_replicate] at hSame
    rw [hSame]
    split <;> simp
  have hFront :
      ∀ other ∈ blocks.take k, other.length = size := by
    intro other hOther
    rcases List.mem_iff_getElem.mp hOther with ⟨i, hLess, rfl⟩
    rw [List.length_take] at hLess
    rw [List.getElem_take, h.length_block, if_pos (by omega)]
  have hLast :
      block.length = size ∨
        blocks.drop (k + 1) = [] ∧ block.length ≤ size := by
    have hLength := h.length_block hInside
    rw [hEq] at hLength
    split at hLength
    · exact .inl hLength
    · right
      exact ⟨List.drop_eq_nil_iff.mpr (by omega), by omega⟩
  have hTake := drop_flatten_take hFront hLast
  rw [← hSplit, List.length_take,
    Nat.min_eq_left (Nat.le_of_lt hInside), h.joined] at hTake
  exact hTake.symm

------------------------------------------------------------
-- Writers That Divide
------------------------------------------------------------

namespace FrameWriter

/-
  Between two states, frames of some blocks were laid out in
  the data sink, and counted.
-/
structure LaysOut
    (Laid : List Bytes → Bytes → Prop)
    (before : W SinkPair × SinkPair)
    (blocks : List Bytes)
    (after : W SinkPair × SinkPair) : Prop where
  received :
    ∃ added,
      Laid blocks added ∧
      after.2.data.contents = before.2.data.contents ++ added
  frames :
    frames after.1 = frames before.1 + blocks.length

/-
  Writers of a kind divide what they take into blocks of one
  size. A closed writer refuses all bytes. Any other takes
  them, whether they come together or one after the other,
  and lays out the full blocks; a flush or finish lays out
  what is left.
-/
structure Divides
    (closed : W SinkPair → Bool)
    (size : Nat)
    (Laid : List Bytes → Bytes → Prop)
    (Sound : W SinkPair × SinkPair → Prop) : Prop where
  laid_append :
    ∀ front back bs cs,
      Laid front bs →
      Laid back cs →
        Laid (front ++ back) (bs ++ cs)
  held_lt :
    ∀ s, Sound s → (regrouper s.1).held.size < size
  refuses :
    ∀ s data,
      closed s.1 = true →
        ∃ e, (write data).perform s = (.error e, s)
  empty :
    ∀ s,
      closed s.1 = false →
        (write []).perform s = (.ok (), s)
  append :
    ∀ s t u front back,
      Sound s →
      (write front).perform s = (.ok (), t) →
      (write back).perform t = (.ok (), u) →
        (write (front ++ back)).perform s = (.ok (), u)
  takes :
    ∀ s data,
      Sound s →
      closed s.1 = false →
        ∃ t blocks,
          (write data).perform s = (.ok (), t) ∧
          Sound t ∧
          closed t.1 = false ∧
          LaysOut Laid s blocks t ∧
          (regrouper s.1).held.toBytes ++ data =
            blocks.flatten ++ (regrouper t.1).held.toBytes ∧
          ∀ block ∈ blocks, block.length = size
  ends :
    ∀ s (call : Call),
      Sound s →
      call.isPoint = true →
        Sound (call.after s) ∧
        pending (call.after s).1 = 0
  lays :
    ∀ s (call : Call),
      Sound s →
      call = .flush ∨ call = .finish →
        LaysOut Laid s (regrouper s.1).remainder (call.after s)

/- The bytes that a writer takes of those carried to it. -/
def taken
    (closed : W SinkPair → Bool)
    (writer : W SinkPair)
    (bytes : Bytes) : Bytes :=
  if closed writer then [] else bytes

namespace Divides

variable
  {closed : W SinkPair → Bool} {size : Nat}
  {Laid : List Bytes → Bytes → Prop}
  {Sound : W SinkPair × SinkPair → Prop}
  {s : W SinkPair × SinkPair}

/- What is left of a write, which a closed writer refuses. -/
theorem closed_write
    (h : Divides closed size Laid Sound)
    (hSound : Sound s)
    (data : Bytes) :
    closed ((write data).final s).1 = closed s.1 ∧
      Sound ((write data).final s) := by
  cases hClosed : closed s.1 with
  | true =>
    rcases h.refuses s data hClosed with ⟨e, hWrite⟩
    rw [Step.final, hWrite]
    exact ⟨hClosed, hSound⟩
  | false =>
    rcases h.takes s data hSound hClosed with
      ⟨t, _, hWrite, hNext, hOpen, _⟩
    rw [Step.final, hWrite]
    exact ⟨hOpen, hNext⟩

theorem final_write_nil
    (h : Divides closed size Laid Sound) :
    (write []).final s = s := by
  cases hClosed : closed s.1 with
  | true =>
    rcases h.refuses s [] hClosed with ⟨e, hWrite⟩
    rw [Step.final, hWrite]
  | false => rw [Step.final, h.empty s hClosed]

/- Bytes may come together or one after the other. -/
theorem final_write_append
    (h : Divides closed size Laid Sound)
    (hSound : Sound s)
    (front back : Bytes) :
    (write (front ++ back)).final s =
      (write back).final ((write front).final s) := by
  cases hClosed : closed s.1 with
  | true =>
    rcases h.refuses s (front ++ back) hClosed with ⟨_, hAll⟩
    rcases h.refuses s front hClosed with ⟨_, hFront⟩
    rcases h.refuses s back hClosed with ⟨_, hBack⟩
    simp only [Step.final, hAll, hFront, hBack]
  | false =>
    rcases h.takes s front hSound hClosed with
      ⟨t, _, hFront, hMiddle, hOpen, _⟩
    rcases h.takes t back hMiddle hOpen with ⟨u, _, hBack, _⟩
    simp only [Step.final, hFront, hBack,
      h.append s t u front back hSound hFront hBack]

/- A call that is no point writes what it carries. -/
theorem after_of_plain
    (h : Divides closed size Laid Sound)
    {call : Call}
    (hPlain : call.isPoint = false)
    (s : W SinkPair × SinkPair) :
    call.after s = (write call.carried).final s := by
  rcases Call.perform_of_plain hPlain s with
    ⟨hWrite, _⟩ | ⟨hNone, e, hRefused⟩
  · rw [Call.after, Step.final, hWrite]
    rfl
  · rw [Call.after, hNone, h.final_write_nil, Step.final, hRefused]

theorem sound_after
    (h : Divides closed size Laid Sound)
    (hSound : Sound s)
    (call : Call) :
    Sound (call.after s) := by
  cases hPoint : call.isPoint with
  | true => exact (h.ends s call hSound hPoint).1
  | false =>
    rw [h.after_of_plain hPoint]
    exact (h.closed_write hSound _).2

------------------------------------------------------------
-- Sights
------------------------------------------------------------

/-
  What is seen behind each of some stretches, if the bytes of
  each are written at once.
-/
def sightsOf
    (s : W SinkPair × SinkPair) : List Call.Stretch → List Sight
  | [] => []
  | ⟨bytes, point⟩ :: rest =>
      let t := point.after ((write bytes).final s)
      sight t :: sightsOf t rest

/-
  What is seen at the points depends on the stretches only.
  The induction goes over the calls, with the bytes that the
  stretch has carried so far.
-/
theorem sights_eq
    (h : Divides closed size Laid Sound)
    (hSound : Sound s)
    {course : Course W SinkPair}
    {bytes : Bytes}
    (hState : course.state = (write bytes).final s)
    (calls : List Call) :
    course.sights calls =
      sightsOf s (Call.stretchesFrom bytes calls) := by
  induction calls generalizing course s bytes with
  | nil => rfl
  | cons call calls ih =>
    unfold Course.sights Call.stretchesFrom
    cases hPoint : call.isPoint with
    | true =>
      have hEnd := (h.closed_write hSound bytes).2
      have hNext := (h.ends _ call hEnd hPoint).1
      have hStart :
          (course.step call).state =
            (write []).final (call.after course.state) := by
        rw [h.final_write_nil, Course.state_step]
      rw [← hState] at hNext
      simp only [if_true, sightsOf, ← hState]
      rw [ih hNext hStart, Course.state_step]
    | false =>
      have hNext :
          (course.step call).state =
            (write (bytes ++ call.carried)).final s := by
        rw [Course.state_step, hState, h.after_of_plain hPoint,
          h.final_write_append hSound]
      simp only [Bool.false_eq_true, if_false]
      exact ih hSound hNext

------------------------------------------------------------
-- Blocks Of Stretches
------------------------------------------------------------

theorem laysOut_append
    {t u : W SinkPair × SinkPair}
    {front back : List Bytes}
    (h : Divides closed size Laid Sound)
    (hFront : LaysOut Laid s front t)
    (hBack : LaysOut Laid t back u) :
    LaysOut Laid s (front ++ back) u := by
  rcases hFront with ⟨⟨bs, hLaid, hReceived⟩, hFrames⟩
  rcases hBack with ⟨⟨cs, hLaid', hReceived'⟩, hFrames'⟩
  constructor
  · refine ⟨bs ++ cs, h.laid_append _ _ _ _ hLaid hLaid', ?_⟩
    rw [hReceived', hReceived, List.append_assoc]
  · rw [hFrames', hFrames, List.length_append, Nat.add_assoc]

/- A call that is refused brings in nothing. -/
theorem kept_of_refused
    {course : Course W SinkPair}
    {call : Call}
    {e : Error}
    (hPlain : call.isPoint = false)
    (hCall :
      call.action.perform course.state =
        (.error e, course.state)) :
    (course.step call).kept = course.kept := by
  have hReset : call ≠ .reset := by
    rintro rfl
    cases hPlain
  rw [Course.step_eq hCall]
  dsimp only [Course.state]
  rw [Call.leftOf_of_ne hReset,
    Call.accepted_of_count call 0 rfl (by simp), List.take_zero,
    List.append_nil]

/- What a call that is no point brings in. -/
theorem kept_step
    (h : Divides closed size Laid Sound)
    {course : Course W SinkPair}
    (hSound : Sound course.state)
    {call : Call}
    (hPlain : call.isPoint = false) :
    (course.step call).kept =
      course.kept ++ taken closed course.writer call.carried := by
  have hReset : call ≠ .reset := by
    rintro rfl
    cases hPlain
  rcases Call.perform_of_plain hPlain course.state with
    ⟨hWrite, hOffered⟩ | ⟨hNone, e, hRefused⟩
  · cases hClosed : closed course.writer with
    | true =>
      rcases h.refuses course.state call.carried hClosed with
        ⟨e, hRefused⟩
      rw [kept_of_refused hPlain (hWrite.trans hRefused), taken,
        if_pos hClosed, List.append_nil]
    | false =>
      rcases h.takes course.state call.carried hSound hClosed
        with ⟨t, _, hTaken, _⟩
      rw [Course.step_eq (hWrite.trans hTaken),
        Call.leftOf_of_ne hReset, taken, if_neg (by simp [hClosed]),
        ← hOffered]
      rfl
  · rw [kept_of_refused hPlain hRefused, hNone, taken, ite_self,
      List.append_nil]

/- Calls without a point write what they carry. -/
theorem run_of_plain
    (h : Divides closed size Laid Sound)
    {course : Course W SinkPair}
    (hSound : Sound course.state)
    {calls : List Call}
    (hPlain : ∀ call ∈ calls, call.isPoint = false) :
    (course.run calls).state =
        (write (calls.flatMap Call.carried)).final
          course.state ∧
      (course.run calls).kept =
        course.kept ++
          taken closed course.writer
            (calls.flatMap Call.carried) := by
  induction calls generalizing course with
  | nil =>
    refine ⟨h.final_write_nil.symm, ?_⟩
    rw [List.flatMap_nil, taken, ite_self, List.append_nil]
    rfl
  | cons call calls ih =>
    have hCall := hPlain call List.mem_cons_self
    have hState :
        (course.step call).state =
          (write call.carried).final course.state :=
      h.after_of_plain hCall course.state
    have hNext := h.closed_write hSound call.carried
    rw [← hState] at hNext
    have hLater :
        ∀ later ∈ calls, later.isPoint = false := by
      intro later hMem
      exact hPlain later (List.mem_cons_of_mem _ hMem)
    rcases ih hNext.2 hLater with ⟨hRun, hKept⟩
    have hClosed :
        closed (course.step call).writer = closed course.writer :=
      hNext.1
    constructor
    · rw [List.flatMap_cons, h.final_write_append hSound, ← hState]
      exact hRun
    · rw [List.flatMap_cons]
      apply hKept.trans
      rw [h.kept_step hSound hCall, taken, taken, taken, hClosed]
      split
      · simp
      · simp

/-
  Up to a flush or finish, a stretch lays out its bytes as
  full blocks and a shorter last one, and nothing else.
-/
theorem blocks_of_stretch
    (h : Divides closed size Laid Sound)
    {course : Course W SinkPair}
    (hSound : Sound course.state)
    (hNone : pending course.writer = 0)
    {calls : List Call}
    (hPlain : ∀ call ∈ calls, call.isPoint = false)
    {point : Call}
    (hPoint : point = .flush ∨ point = .finish) :
    let after := course.run (calls ++ [point])
    let bytes :=
      taken closed course.writer (calls.flatMap Call.carried)
    after.kept = course.kept ++ bytes ∧
      ∃ blocks,
        bytes.DividedInto size blocks ∧
        LaysOut Laid course.state blocks after.state := by
  intro after bytes
  let middle := course.run calls
  rcases h.run_of_plain hSound hPlain with ⟨hState, hKept⟩
  have hMiddle : Sound middle.state := by
    rw [hState]
    exact (h.closed_write hSound _).2
  have hAfter : after = middle.step point :=
    course.run_append calls [point]
  have hLast : after.state = point.after middle.state := by
    rw [hAfter, Course.state_step]
  have hHeld :
      (regrouper course.writer).held.toBytes = [] :=
    Tape.toBytes_eq_nil hNone
  constructor
  · have hOffered : point.offered = [] := by
      rcases hPoint with rfl | rfl
      · rfl
      · rfl
    have hReset : point ≠ .reset := by
      rcases hPoint with rfl | rfl
      · simp
      · simp
    rw [hAfter, ← hKept]
    change point.leftOf middle.writer middle.kept ++ _ = _
    rw [Call.leftOf_of_ne hReset, Call.accepted_of_none hOffered,
      List.append_nil]
  rw [hLast]
  have hLaid := h.lays middle.state point hMiddle hPoint
  cases hClosed : closed course.writer with
  | true =>
    rcases h.refuses course.state (calls.flatMap Call.carried)
      hClosed with ⟨e, hRefused⟩
    have hSame : middle.state = course.state := by
      rw [hState, Step.final, hRefused]
    have hRest :
        (regrouper course.writer).remainder = [] :=
      if_pos hNone
    rw [hSame] at hLaid ⊢
    refine ⟨_, ?_, hLaid⟩
    have hBytes : bytes = [] := if_pos hClosed
    change bytes.DividedInto size (regrouper course.writer).remainder
    rw [hBytes, hRest]
    have hSize := h.held_lt course.state hSound
    exact Bytes.dividedInto_nil (Nat.zero_lt_of_lt hSize)
  | false =>
    rcases h.takes course.state (calls.flatMap Call.carried)
      hSound hClosed with
      ⟨t, blocks, hTaken, hNext, _, hFull, hBytes, hLengths⟩
    have hSame : middle.state = t := by
      rw [hState, Step.final, hTaken]
    rw [hSame] at hLaid ⊢
    refine ⟨_, ?_, h.laysOut_append hFull hLaid⟩
    have hTake : bytes = calls.flatMap Call.carried :=
      if_neg (by simp [hClosed])
    change
      (regrouper course.writer).held.toBytes ++ _ = _ at hBytes
    rw [hHeld, List.nil_append] at hBytes
    rw [hTake, hBytes]
    apply Bytes.dividedInto_append hLengths
    · rw [← Tape.size_eq_length]
      exact h.held_lt t hNext
    · rw [Regrouper.remainder, Tape.size_eq_length]

end Divides

end FrameWriter

------------------------------------------------------------
-- Courses
------------------------------------------------------------

/-
  What a course lays out does not depend on how its calls
  divide what they carry: with the same stretches, the same
  is seen at all points. Up to a flush or finish, the bytes
  that are taken since the last point are laid out as full
  blocks and a shorter last one.
-/
structure Course.DividesAlike
    (closed : W SinkPair → Bool)
    (size : Nat)
    (Laid : List Bytes → Bytes → Prop)
    (course : Course W SinkPair) : Prop where
  alike :
    ∀ left right,
      Call.stretches left = Call.stretches right →
        course.sights left = course.sights right
  blocks :
    ∀ front calls point,
      (∀ call ∈ front.getLast?, call.isPoint = true) →
      (∀ call ∈ calls, call.isPoint = false) →
      point = .flush ∨ point = .finish →
        let before := course.run front
        let after := before.run (calls ++ [point])
        let bytes :=
          FrameWriter.taken closed before.writer
            (calls.flatMap Call.carried)
        after.kept = before.kept ++ bytes ∧
          ∃ blocks,
            bytes.DividedInto size blocks ∧
            FrameWriter.LaysOut Laid before.state blocks
              after.state

namespace FrameWriter

variable
  {closed : W SinkPair → Bool} {size : Nat}
  {Laid : List Bytes → Bytes → Prop}
  {Sound : W SinkPair × SinkPair → Prop}

/- Nothing is held behind a point. -/
theorem Divides.pending_run
    (h : Divides closed size Laid Sound)
    {course : Course W SinkPair}
    (hSound : Sound course.state)
    (hNone : pending course.writer = 0)
    {front : List Call}
    (hFront : ∀ call ∈ front.getLast?, call.isPoint = true) :
    Sound (course.run front).state ∧
      pending (course.run front).writer = 0 := by
  have hRun : ∀ calls, Sound (course.run calls).state := by
    intro calls
    let Holds (course : Course W SinkPair) : Prop :=
      Sound course.state
    have hStep :
        ∀ course,
          Holds course → ∀ call, Holds (course.step call) :=
      fun _ hCourse call => h.sound_after hCourse call
    exact Course.run_of_step hStep course calls hSound
  refine ⟨hRun front, ?_⟩
  rcases List.eq_nil_or_concat front with rfl | ⟨init, point, rfl⟩
  · exact hNone
  · have hPoint : point.isPoint = true := by
      apply hFront
      simp
    rw [List.concat_eq_append, Course.run_append]
    exact (h.ends _ point (hRun init) hPoint).2

theorem Divides.dividesAlike
    (h : Divides closed size Laid Sound)
    {course : Course W SinkPair}
    (hSound : Sound course.state)
    (hNone : pending course.writer = 0) :
    course.DividesAlike closed size Laid where
  alike := by
    intro left right hStretches
    have hState :
        course.state = (write []).final course.state :=
      h.final_write_nil.symm
    rw [h.sights_eq hSound hState left,
      h.sights_eq hSound hState right]
    exact congrArg (sightsOf course.state) hStretches
  blocks := by
    intro front calls point hFront hPlain hPoint
    rcases h.pending_run hSound hNone hFront with
      ⟨hBefore, hHeld⟩
    exact h.blocks_of_stretch hBefore hHeld hPlain hPoint

end FrameWriter

end SplitStream
