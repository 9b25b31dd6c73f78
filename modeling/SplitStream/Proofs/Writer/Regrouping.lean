import SplitStream.Proofs.Container.Segments
import SplitStream.Regrouper

/-
  Regrouping of bytes into blocks. Whatever the codec and the
  emission do with single blocks, the bytes that are taken
  are those of the emitted blocks and those held over, in
  order.

  Main declarations:
    * `Codec.Makes`
    * `Codec.Makes.restores`
    * `Emission.Extends`
    * `Regrouper.Intake`
    * `Regrouper.Writes`
    * `Regrouper.writes_of_extends`
    * `Regrouper.flush_of_extends`
-/

------------------------------------------------------------
-- Packing
------------------------------------------------------------

namespace SplitStream

/- The codec may turn the block into the packed bytes. -/
def Codec.Makes
    (codec : Codec)
    (content : PackedBlock) : Prop :=
  ∃ buffer attempt room length,
    (codec.compress attempt content.block room).report =
      .ok length ∧
    length ≤ room ∧
    content.packed =
      codec.packedIn buffer attempt content.block room length

/- The codec does so in a buffer of the given size. -/
def Codec.MakesWithin
    (codec : Codec)
    (room : Nat)
    (content : PackedBlock) : Prop :=
  ∃ buffer attempt length,
    (codec.compress attempt content.block room).report =
      .ok length ∧
    length ≤ room ∧
    content.packed =
      codec.packedIn buffer attempt content.block room length

theorem Codec.MakesWithin.makes
    {codec : Codec}
    {room : Nat}
    {content : PackedBlock}
    (h : codec.MakesWithin room content) :
    codec.Makes content := by
  rcases h with
    ⟨buffer, attempt, length, hReport, hRoom, hPacked⟩
  exact
    ⟨buffer, attempt, room, length, hReport, hRoom, hPacked⟩

/- What is packed is not longer than the buffer. -/
theorem Codec.MakesWithin.length_le
    {codec : Codec}
    {room : Nat}
    {content : PackedBlock}
    (h : codec.MakesWithin room content) :
    content.packed.length ≤ room := by
  rcases h with ⟨_, _, _, _, hRoom, hPacked⟩
  rw [hPacked, packedIn, Scratch.length_front]
  exact hRoom

/- What is packed is unpacked by a codec that is faithful. -/
theorem Codec.MakesWithin.restores
    {codec : Codec}
    {room : Nat}
    {content : PackedBlock}
    (h : codec.MakesWithin room content)
    (hFaithful : codec.Faithful) :
    codec.Restores content.packed content.block := by
  rcases h with
    ⟨buffer, attempt, length, hReport, hRoom, hPacked⟩
  rw [hPacked]
  exact hFaithful buffer attempt _ room length hReport hRoom

theorem Codec.Makes.restores
    {codec : Codec}
    {content : PackedBlock}
    (hMakes : codec.Makes content)
    (hLossless : codec.Lossless)
    (hShort : content.packed.length < content.block.length) :
    codec.Restores content.packed content.block := by
  rcases hMakes with
    ⟨buffer, attempt, room, length, hReport, hRoom, hPacked⟩
  have hLength : content.packed.length = length := by
    rw [hPacked, Codec.packedIn, Scratch.length_front]
  rw [hPacked]
  apply hLossless buffer attempt _ room length hReport hRoom
  rwa [← hLength]

------------------------------------------------------------
-- Emissions
------------------------------------------------------------

variable {σ : Type}

/-
  An emission of a block adds it to what has been emitted, or
  fails in one of the given ways and adds nothing.
-/
def Emission.Extends
    (emit : Emission σ)
    (Makes : PackedBlock → Prop)
    (Emitted : List PackedBlock → σ → Prop)
    (Fails : Error → Prop) : Prop :=
  ∀ (contents : List PackedBlock) (content : PackedBlock)
    (s : σ),
    Emitted contents s →
    content.Fits →
    Makes content →
      let outcome :=
        (emit content.block content.packed).perform s
      (outcome.1 = .ok () ∧
          Emitted (contents ++ [content]) outcome.2) ∨
        ∃ e,
          outcome.1 = .error e ∧
          Fails e ∧
          Emitted contents outcome.2

namespace Regrouper

/- The errors of a regrouper that are not of its emission. -/
inductive Refuses
    (Fails : Error → Prop) : Error → Prop where
  | codec (status : CodecStatus) (reason : String) :
      Refuses Fails (.codec status reason)
  | overlong (name : String) (reported room : Nat) :
      Refuses Fails (.misuse (.overlongReport name reported room))
  | emission {e : Error} : Fails e → Refuses Fails e

/- The codec and the block size of a regrouper stay. -/
structure Kin
    (regrouper next : Regrouper) : Prop where
  codec : next.codec = regrouper.codec
  blockSize : next.blockSize = regrouper.blockSize

theorem Kin.trans
    {first second third : Regrouper}
    (hFirst : first.Kin second)
    (hSecond : second.Kin third) :
    first.Kin third :=
  ⟨hSecond.codec.trans hFirst.codec,
    hSecond.blockSize.trans hFirst.blockSize⟩

/- What the codec of a regrouper makes in its buffer. -/
def Makes
    (regrouper : Regrouper)
    (content : PackedBlock) : Prop :=
  regrouper.codec.MakesWithin regrouper.room content

theorem Kin.makes
    {regrouper next : Regrouper}
    {content : PackedBlock}
    (hKin : regrouper.Kin next)
    (h : next.Makes content) :
    regrouper.Makes content := by
  rw [Makes, room, hKin.codec, hKin.blockSize] at h
  exact h

variable
  {emit : Emission σ} {Makes : PackedBlock → Prop}
  {Emitted : List PackedBlock → σ → Prop}
  {Fails : Error → Prop}

/- A block is emitted as the codec packs it, or refused. -/
theorem compressBlock_of_extends
    (hEmit : emit.Extends Makes Emitted Fails)
    {regrouper : Regrouper}
    (hMakes : ∀ content, regrouper.Makes content → Makes content)
    {block : Bytes}
    (hPos : 0 < block.length)
    (hLe : block.length ≤ maxBlockSize)
    {contents : List PackedBlock}
    {s : σ}
    (hEmitted : Emitted contents s) :
    ∃ result next t,
      regrouper.compressBlock emit block s = (result, next, t) ∧
      regrouper.Kin next ∧
      next.held = regrouper.held ∧
      ((result = .ok () ∧
          ∃ packed, Emitted (contents ++ [⟨block, packed⟩]) t) ∨
        ∃ e,
          result = .error e ∧
          Refuses Fails e ∧
          Emitted contents t) := by
  unfold compressBlock
  dsimp only
  split
  · exact
      ⟨_, _, _, rfl, ⟨rfl, rfl⟩, rfl,
        .inr ⟨_, rfl, .codec _ _, hEmitted⟩⟩
  · rename_i length hReport
    split
    · exact
        ⟨_, _, _, rfl, ⟨rfl, rfl⟩, rfl,
          .inr ⟨_, rfl, .overlong _ _ _, hEmitted⟩⟩
    · rename_i hRoom
      have hMade :
          regrouper.Makes
            ⟨block,
              regrouper.codec.packedIn regrouper.output
                regrouper.attempts block regrouper.room length⟩ :=
        ⟨_, _, _, hReport, Nat.not_lt.mp hRoom, rfl⟩
      rcases hEmit contents _ s hEmitted ⟨hPos, hLe⟩
        (hMakes _ hMade) with
        ⟨hOk, hMore⟩ | ⟨e, hError, hFails, hSame⟩
      · exact
          ⟨_, _, _, rfl, ⟨rfl, rfl⟩, rfl,
            .inl ⟨hOk, _, hMore⟩⟩
      · exact
          ⟨_, _, _, rfl, ⟨rfl, rfl⟩, rfl,
            .inr ⟨e, hError, .emission hFails, hSame⟩⟩

------------------------------------------------------------
-- Writing
------------------------------------------------------------

/-
  Some of the offered bytes were taken: with those held
  before, they make up full blocks and the bytes held after.
-/
structure Intake
    (regrouper next : Regrouper)
    (offered : Bytes)
    (taken : Nat)
    (contents : List PackedBlock) : Prop where
  kin : regrouper.Kin next
  held_le : next.held.size ≤ next.blockSize
  taken_le : taken ≤ offered.length
  bytes :
    regrouper.held.toBytes ++ offered.take taken =
      contents.flatMap PackedBlock.block ++ next.held.toBytes
  full :
    ∀ content ∈ contents,
      content.block.length = regrouper.blockSize

/- The length of blocks of one size. -/
theorem length_of_full
    {size : Nat}
    {contents : List PackedBlock}
    (hFull :
      ∀ content ∈ contents, content.block.length = size) :
    (contents.flatMap PackedBlock.block).length =
      contents.length * size := by
  induction contents with
  | nil => simp
  | cons content contents ih =>
    rw [List.flatMap_cons, List.length_append,
      hFull content List.mem_cons_self, ih, List.length_cons,
      Nat.succ_mul, Nat.add_comm]
    intro later hLater
    exact hFull later (List.mem_cons_of_mem _ hLater)

/- The counters of a regrouper tell how much it has taken. -/
theorem Intake.count
    {regrouper next : Regrouper}
    {offered : Bytes}
    {taken : Nat}
    {contents : List PackedBlock}
    (h : regrouper.Intake next offered taken contents) :
    regrouper.pending + taken =
      contents.length * regrouper.blockSize + next.pending := by
  have hBlocks := length_of_full h.full
  have hLength := congrArg List.length h.bytes
  rw [List.length_append, List.length_append, List.length_take,
    hBlocks, Nat.min_eq_left h.taken_le] at hLength
  rw [pending, pending, Tape.size_eq_length, Tape.size_eq_length]
  exact hLength

/- The regrouper that holds further bytes. -/
def holding
    (regrouper : Regrouper)
    (bs : Bytes) : Regrouper :=
  { regrouper with held := regrouper.held.append bs }

/- The regrouper that holds nothing. -/
def emptied
    (regrouper : Regrouper) : Regrouper :=
  { regrouper with held := .empty }

/- Bytes that do not complete a block are held. -/
theorem writeFrom_of_short
    {regrouper : Regrouper}
    {data : Bytes}
    (emit : Emission σ)
    (hShort :
      data.length <
        regrouper.blockSize - regrouper.held.size)
    (s : σ) :
    ∃ next,
      writeFrom emit data regrouper s = (.ok (), next, s) ∧
      regrouper.Kin next ∧
      next.held.toBytes = regrouper.held.toBytes ++ data := by
  cases data with
  | nil =>
    exact
      ⟨regrouper, by rw [writeFrom], ⟨rfl, rfl⟩, by simp⟩
  | cons b rest =>
    have hTake :
        (b :: rest).take
          (regrouper.blockSize - regrouper.held.size) =
          b :: rest :=
      List.take_of_length_le (Nat.le_of_lt hShort)
    refine
      ⟨regrouper.holding (b :: rest), ?_, ⟨rfl, rfl⟩, by
        simp [holding]⟩
    rw [writeFrom, hTake, if_pos hShort]
    rfl

/- With nothing held, a block is taken from the bytes. -/
theorem writeFrom_of_straight
    {regrouper : Regrouper}
    {data : Bytes}
    (hHeld : regrouper.held.size = 0)
    (hFull : regrouper.blockSize ≤ data.length)
    (s : σ) :
    writeFrom emit data regrouper s =
      match regrouper.compressBlock emit
          (data.take regrouper.blockSize) s with
      | (.error e, next, t) => (.error e, next, t)
      | (.ok (), next, t) =>
          writeFrom emit (data.drop regrouper.blockSize)
            next t := by
  cases data with
  | nil =>
    have := regrouper.blockSize_pos
    simp at hFull
    omega
  | cons b rest =>
    have hLength :
        ¬ ((b :: rest).take regrouper.blockSize).length <
          regrouper.blockSize := by
      rw [List.length_take]
      omega
    rw [writeFrom, hHeld, Nat.sub_zero, if_neg hLength]
    exact dif_pos rfl

/- Otherwise the bytes complete the held block first. -/
theorem writeFrom_of_held
    {regrouper : Regrouper}
    {data : Bytes}
    (hSome : data ≠ [])
    (hHeld : regrouper.held.size ≠ 0)
    (hFull :
      regrouper.blockSize - regrouper.held.size ≤ data.length)
    (s : σ) :
    writeFrom emit data regrouper s =
      let missing := regrouper.blockSize - regrouper.held.size
      let filled := regrouper.holding (data.take missing)
      match filled.compressBlock emit filled.held.toBytes s with
      | (.error e, next, t) => (.error e, next, t)
      | (.ok (), next, t) =>
          writeFrom emit (data.drop missing) next.emptied t := by
  cases data with
  | nil => contradiction
  | cons b rest =>
    have hLength :
        ¬ ((b :: rest).take
            (regrouper.blockSize - regrouper.held.size)).length <
          regrouper.blockSize - regrouper.held.size := by
      rw [List.length_take]
      omega
    rw [writeFrom, if_neg hLength, dif_neg hHeld]
    rfl

/- A completed block is followed by what is taken later. -/
theorem Intake.cons
    {regrouper middle next : Regrouper}
    {data : Bytes}
    {n taken : Nat}
    {content : PackedBlock}
    {contents : List PackedBlock}
    (hRest : middle.Intake next (data.drop n) taken contents)
    (hKin : regrouper.Kin middle)
    (hLe : n ≤ data.length)
    (hBlock :
      content.block = regrouper.held.toBytes ++ data.take n)
    (hLength : content.block.length = regrouper.blockSize)
    (hNone : middle.held.size = 0) :
    regrouper.Intake next data (n + taken)
      (content :: contents) where
  kin := hKin.trans hRest.kin
  held_le := hRest.held_le
  taken_le := by
    have := hRest.taken_le
    rw [List.length_drop] at this
    omega
  bytes := by
    have hBytes := hRest.bytes
    rw [Tape.toBytes_eq_nil hNone, List.nil_append] at hBytes
    rw [List.take_add, ← List.append_assoc, ← hBlock, hBytes,
      List.flatMap_cons, List.append_assoc]
  full := by
    intro later hLater
    rcases List.mem_cons.mp hLater with rfl | hLater
    · exact hLength
    · rw [← hKin.blockSize]
      exact hRest.full later hLater

/-
  A write takes some bytes and emits the blocks that these
  complete. All bytes are taken if it succeeds.
-/
def Writes
    (emit : Emission σ)
    (Emitted : List PackedBlock → σ → Prop)
    (Fails : Error → Prop)
    (data : Bytes)
    (regrouper : Regrouper)
    (s : σ)
    (contents : List PackedBlock) : Prop :=
  ∃ result next t taken added,
    writeFrom emit data regrouper s = (result, next, t) ∧
    regrouper.Intake next data taken added ∧
    Emitted (contents ++ added) t ∧
    (result = .ok () → taken = data.length) ∧
    ∀ e, result = .error e → Refuses Fails e

variable
  {regrouper : Regrouper} {data : Bytes} {s : σ}
  {contents : List PackedBlock}

theorem writes_of_nil
    (hLe : regrouper.held.size ≤ regrouper.blockSize)
    (hEmitted : Emitted contents s) :
    Writes emit Emitted Fails [] regrouper s contents := by
  refine
    ⟨.ok (), regrouper, s, 0, [], by rw [writeFrom], ?_,
      by simpa using hEmitted, fun _ => rfl, by simp⟩
  exact ⟨⟨rfl, rfl⟩, hLe, by simp, by simp, by simp⟩

theorem writes_of_short
    (hShort :
      data.length < regrouper.blockSize - regrouper.held.size)
    (hEmitted : Emitted contents s) :
    Writes emit Emitted Fails data regrouper s contents := by
  rcases writeFrom_of_short emit hShort s with
    ⟨next, hWrite, hKin, hBytes⟩
  refine
    ⟨.ok (), next, s, _, [], hWrite, ?_, by simpa using hEmitted,
      fun _ => rfl, by simp⟩
  exact
    { kin := hKin
      held_le := by
        rw [hKin.blockSize, Tape.size_eq_length, hBytes,
          List.length_append, ← Tape.size_eq_length]
        omega
      taken_le := Nat.le_refl _
      bytes := by simpa using hBytes.symm
      full := by simp }

/- A completed block is emitted, and the later bytes follow. -/
theorem Writes.cons
    {middle : Regrouper}
    {t : σ}
    {n : Nat}
    {content : PackedBlock}
    (hWrite :
      writeFrom emit data regrouper s =
        writeFrom emit (data.drop n) middle t)
    (hKin : regrouper.Kin middle)
    (hLe : n ≤ data.length)
    (hBlock :
      content.block = regrouper.held.toBytes ++ data.take n)
    (hLength : content.block.length = regrouper.blockSize)
    (hNone : middle.held.size = 0)
    (hLater :
      Writes emit Emitted Fails (data.drop n) middle t
        (contents ++ [content])) :
    Writes emit Emitted Fails data regrouper s contents := by
  rcases hLater with
    ⟨result, last, u, taken, added, hRest, hIntake, hAll, hOk,
      hError⟩
  refine
    ⟨result, last, u, n + taken, content :: added,
      hWrite.trans hRest, ?_, ?_, ?_, hError⟩
  · exact hIntake.cons hKin hLe hBlock hLength hNone
  · rwa [List.append_cons]
  · intro hDone
    have hTaken := hOk hDone
    rw [List.length_drop] at hTaken
    omega

/- A refused block ends a write. -/
theorem writes_of_refused
    {next : Regrouper}
    {t : σ}
    {taken : Nat}
    {e : Error}
    (hWrite :
      writeFrom emit data regrouper s = (.error e, next, t))
    (hIntake : regrouper.Intake next data taken [])
    (hRefuses : Refuses Fails e)
    (hEmitted : Emitted contents t) :
    Writes emit Emitted Fails data regrouper s contents := by
  refine
    ⟨.error e, next, t, taken, [], hWrite, hIntake, ?_, ?_, ?_⟩
  · rw [List.append_nil]
    exact hEmitted
  · intro hDone
    cases hDone
  · intro e' hSame
    cases hSame
    exact hRefuses

/- A refused block of the bytes is dropped. -/
theorem writes_of_straight
    (hEmit : emit.Extends Makes Emitted Fails)
    (hMakes : ∀ content, regrouper.Makes content → Makes content)
    (hSize : regrouper.blockSize ≤ maxBlockSize)
    (hHeld : regrouper.held.size = 0)
    (hFull : regrouper.blockSize ≤ data.length)
    (hEmitted : Emitted contents s)
    (hLater :
      ∀ next t content,
        regrouper.Kin next →
        next.held.size = 0 →
        Emitted (contents ++ [content]) t →
          Writes emit Emitted Fails
            (data.drop regrouper.blockSize) next t
            (contents ++ [content])) :
    Writes emit Emitted Fails data regrouper s contents := by
  have hLength :
      (data.take regrouper.blockSize).length =
        regrouper.blockSize := by
    rw [List.length_take]
    omega
  have hPos : 0 < (data.take regrouper.blockSize).length := by
    rw [hLength]
    exact regrouper.blockSize_pos
  rcases compressBlock_of_extends hEmit hMakes hPos
    (Nat.le_trans (Nat.le_of_eq hLength) hSize) hEmitted with
    ⟨result, next, t, hCompress, hKin, hSame,
      ⟨rfl, packed, hMore⟩ | ⟨e, rfl, hRefuses, hMore⟩⟩
  · have hNone : next.held.size = 0 := by
      rw [hSame, hHeld]
    apply Writes.cons _ hKin hFull _ hLength hNone
      (hLater next t _ hKin hNone hMore)
    · rw [writeFrom_of_straight hHeld hFull, hCompress]
    · rw [Tape.toBytes_eq_nil hHeld]
      rfl
  · apply writes_of_refused _ _ hRefuses hMore
    · exact next
    · exact 0
    · rw [writeFrom_of_straight hHeld hFull, hCompress]
    · exact
        { kin := hKin
          held_le := by rw [hSame, hHeld]; omega
          taken_le := by omega
          bytes := by simp [hSame]
          full := by simp }

/- A refused block that was held is still held. -/
theorem writes_of_held
    (hEmit : emit.Extends Makes Emitted Fails)
    (hMakes : ∀ content, regrouper.Makes content → Makes content)
    (hSize : regrouper.blockSize ≤ maxBlockSize)
    (hLe : regrouper.held.size ≤ regrouper.blockSize)
    (hSome : data ≠ [])
    (hHeld : regrouper.held.size ≠ 0)
    (hFull :
      regrouper.blockSize - regrouper.held.size ≤ data.length)
    (hEmitted : Emitted contents s)
    (hLater :
      ∀ next t content,
        regrouper.Kin next →
        next.held.size = 0 →
        Emitted (contents ++ [content]) t →
          Writes emit Emitted Fails
            (data.drop
              (regrouper.blockSize - regrouper.held.size))
            next t (contents ++ [content])) :
    Writes emit Emitted Fails data regrouper s contents := by
  let missing := regrouper.blockSize - regrouper.held.size
  let filled := regrouper.holding (data.take missing)
  have hBytes :
      filled.held.toBytes =
        regrouper.held.toBytes ++ data.take missing := by
    simp [filled, holding]
  have hLength :
      filled.held.toBytes.length = regrouper.blockSize := by
    rw [hBytes, List.length_append, List.length_take,
      ← Tape.size_eq_length, Nat.min_eq_left hFull]
    omega
  have hPos : 0 < filled.held.toBytes.length := by
    rw [hLength]
    exact regrouper.blockSize_pos
  have hRound :
      writeFrom emit data regrouper s =
        match filled.compressBlock emit filled.held.toBytes s with
        | (.error e, next, t) => (.error e, next, t)
        | (.ok (), next, t) =>
            writeFrom emit (data.drop missing) next.emptied t :=
    writeFrom_of_held hSome hHeld hFull s
  have hFilled :
      ∀ content, filled.Makes content → Makes content :=
    hMakes
  rcases compressBlock_of_extends hEmit hFilled hPos
    (Nat.le_trans (Nat.le_of_eq hLength) hSize) hEmitted with
    ⟨result, next, t, hCompress, hKin, hSame,
      ⟨rfl, packed, hMore⟩ | ⟨e, rfl, hRefuses, hMore⟩⟩
  · have hEmptied : regrouper.Kin next.emptied :=
      ⟨hKin.codec, hKin.blockSize⟩
    apply Writes.cons _ hEmptied hFull hBytes hLength rfl
      (hLater next.emptied t _ hEmptied rfl hMore)
    rw [hRound, hCompress]
  · apply writes_of_refused _ _ hRefuses hMore
    · exact next
    · exact missing
    · rw [hRound, hCompress]
    · exact
        { kin := ⟨hKin.codec, hKin.blockSize⟩
          held_le := by
            rw [hSame, hKin.blockSize, Tape.size_eq_length]
            exact Nat.le_of_eq hLength
          taken_le := hFull
          bytes := by rw [hSame, hBytes]; rfl
          full := by simp }

/-
  Whatever happens to single blocks, the bytes are regrouped.
  A round that takes no bytes leaves nothing held.
-/
theorem writes_of_extends
    (data : Bytes)
    (hEmit : emit.Extends Makes Emitted Fails)
    (hMakes : ∀ content, regrouper.Makes content → Makes content)
    (hSize : regrouper.blockSize ≤ maxBlockSize)
    (hLe : regrouper.held.size ≤ regrouper.blockSize)
    (hEmitted : Emitted contents s) :
    Writes emit Emitted Fails data regrouper s contents := by
  induction hRounds :
      2 * data.length + (if regrouper.held.size = 0 then 0 else 1)
    using Nat.strongRecOn generalizing data regrouper s contents
  rename_i rounds ih
  have hPos := regrouper.blockSize_pos
  by_cases hSome : data = []
  · subst hSome
    exact writes_of_nil hLe hEmitted
  by_cases hShort :
      data.length < regrouper.blockSize - regrouper.held.size
  · exact writes_of_short hShort hEmitted
  have hFull := Nat.not_lt.mp hShort
  by_cases hHeld : regrouper.held.size = 0
  · rw [hHeld, Nat.sub_zero] at hFull
    apply writes_of_straight hEmit hMakes hSize hHeld hFull
      hEmitted
    intro next t content hKin hNone hMore
    apply ih _ _ _ (fun later h => hMakes later (hKin.makes h))
      (hKin.blockSize ▸ hSize) (by rw [hNone]; omega) hMore rfl
    rw [← hRounds, hNone, hHeld, List.length_drop]
    omega
  · apply writes_of_held hEmit hMakes hSize hLe hSome hHeld
      hFull hEmitted
    intro next t content hKin hNone hMore
    apply ih _ _ _ (fun later h => hMakes later (hKin.makes h))
      (hKin.blockSize ▸ hSize) (by rw [hNone]; omega) hMore rfl
    rw [← hRounds, hNone, if_neg hHeld, List.length_drop,
      if_pos rfl]
    omega

------------------------------------------------------------
-- Flushing
------------------------------------------------------------

/- What is held is emitted as a last block, or still held. -/
theorem flush_of_extends
    (hEmit : emit.Extends Makes Emitted Fails)
    (hMakes : ∀ content, regrouper.Makes content → Makes content)
    (hSize : regrouper.blockSize ≤ maxBlockSize)
    (hLe : regrouper.held.size ≤ regrouper.blockSize)
    (hEmitted : Emitted contents s) :
    ∃ result next t added,
      (flush emit).perform (regrouper, s) = (result, next, t) ∧
      regrouper.Kin next ∧
      next.held.size ≤ regrouper.held.size ∧
      Emitted (contents ++ added) t ∧
      regrouper.held.toBytes =
        added.flatMap PackedBlock.block ++ next.held.toBytes ∧
      (result = .ok () → next.held.size = 0) ∧
      ∀ e, result = .error e → Refuses Fails e := by
  by_cases hHeld : regrouper.held.size = 0
  · refine
      ⟨.ok (), regrouper, s, [], ?_, ⟨rfl, rfl⟩, Nat.le_refl _,
        by simpa using hEmitted, rfl, fun _ => hHeld, by simp⟩
    simp [flush, hHeld]
  · have hLength := regrouper.held.size_eq_length
    have hPos : 0 < regrouper.held.toBytes.length := by omega
    have hFits : regrouper.held.toBytes.length ≤ maxBlockSize := by
      omega
    rcases compressBlock_of_extends hEmit hMakes hPos hFits
      hEmitted with
      ⟨result, next, t, hCompress, hKin, hSame,
        ⟨rfl, packed, hMore⟩ | ⟨e, rfl, hRefuses, hMore⟩⟩
    · refine
        ⟨.ok (), next.emptied, t,
          [⟨regrouper.held.toBytes, packed⟩], ?_,
          ⟨hKin.codec, hKin.blockSize⟩, Nat.zero_le _, hMore, ?_,
          fun _ => rfl, by simp⟩
      · simp [flush, hHeld, hCompress, emptied]
      · simp [emptied]
    · refine
        ⟨.error e, next, t, [], ?_, hKin,
          Nat.le_of_eq (by rw [hSame]),
          by simpa using hMore, by rw [hSame]; rfl, by simp, ?_⟩
      · simp [flush, hHeld, hCompress]
      · intro e' hError
        cases hError
        exact hRefuses

end Regrouper

end SplitStream
