import SplitStream.Codec.RunLength
import SplitStream.Codec.Stored
import SplitStream.Proofs.Container.Segments

/-
  Codecs that lose nothing. A codec that reports what it has
  written is without loss if it unpacks what it has written;
  the codec that copies and the codec of runs are such
  codecs.

  Main declarations:
    * `Codec.Unpacks`
    * `Codec.Functional`
    * `Codec.faithful_of_honest`
    * `Codec.stored_lossless`
    * `Codec.Faithful.refusingAt`
    * `Codec.runLength_faithful`
    * `Codec.runLength_lossless`
    * `Codec.runLength_functional`
-/

------------------------------------------------------------
-- Codecs As Functions
------------------------------------------------------------

namespace SplitStream

namespace Codec

/-
  The codec unpacks a payload to a block: its output, for
  the length of the block, is the block.
-/
def Unpacks
    (codec : Codec)
    (payload block : Bytes) : Prop :=
  (codec.decompress payload block.length).report =
      .ok block.length ∧
    (codec.decompress payload block.length).written = block

/-
  Unpacking is a function from a payload and a length to an
  output or a status: what is reported has been written.
-/
def Functional
    (codec : Codec) : Prop :=
  ∀ payload room, (codec.decompress payload room).Honest

/- What is unpacked is restored. -/
theorem Unpacks.restores
    {codec : Codec}
    {payload block : Bytes}
    (h : codec.Unpacks payload block) :
    codec.Restores payload block := by
  refine ⟨h.1, ?_⟩
  rw [h.2, List.take_length]

theorem Functional.unpacks
    {codec : Codec}
    {payload block : Bytes}
    (hCodec : codec.Functional)
    (h : codec.Restores payload block) :
    codec.Unpacks payload block := by
  have hLength := hCodec payload block.length _ h.report
  refine ⟨h.report, ?_⟩
  calc (codec.decompress payload block.length).written
      = (codec.decompress payload
          block.length).written.take block.length := by
        rw [List.take_of_length_le (Nat.le_of_eq hLength)]
    _ = block := h.written

end Codec

------------------------------------------------------------
-- Honest Codecs
------------------------------------------------------------

/- What a codec has written stands in the buffer. -/
theorem Codec.packedIn_of_le
    {codec : Codec}
    {attempt room length : Nat}
    {block : Bytes}
    (buffer : Scratch)
    (hWritten :
      length ≤
        (codec.compress attempt block room).written.length)
    (hRoom : length ≤ room) :
    codec.packedIn buffer attempt block room length =
      (codec.compress attempt block room).written.take
        length := by
  have hLength :
      length ≤
        ((codec.compress attempt block room).written.take
          room).length := by
    rw [List.length_take]
    exact Nat.le_min.mpr ⟨hRoom, hWritten⟩
  rw [packedIn, Scratch.front_overwrite_of_le _ hLength,
    List.take_take, Nat.min_eq_left hRoom]

/- An honest codec has written nothing else. -/
theorem Codec.packedIn_of_honest
    {codec : Codec}
    {attempt room length : Nat}
    {block : Bytes}
    (buffer : Scratch)
    (hHonest : (codec.compress attempt block room).Honest)
    (hReport :
      (codec.compress attempt block room).report = .ok length)
    (hRoom : length ≤ room) :
    codec.packedIn buffer attempt block room length =
      (codec.compress attempt block room).written := by
  have hLength := hHonest length hReport
  rw [packedIn_of_le buffer (Nat.le_of_eq hLength.symm) hRoom,
    ← hLength, List.take_length]

/- An honest codec need only unpack what it has written. -/
theorem Codec.faithful_of_honest
    {codec : Codec}
    (hHonest :
      ∀ attempt block room,
        (codec.compress attempt block room).Honest)
    (hUnpacks :
      ∀ attempt block room length,
        (codec.compress attempt block room).report =
            .ok length →
          codec.decompress
              (codec.compress attempt block room).written
              block.length =
            .success block) :
    codec.Faithful := by
  intro buffer attempt block room length hReport hRoom
  have hBlock := hUnpacks attempt block room length hReport
  rw [packedIn_of_honest buffer (hHonest attempt block room)
    hReport hRoom]
  constructor
  · rw [hBlock]
    rfl
  · rw [hBlock]
    exact List.take_length

theorem Codec.stored_faithful : Codec.stored.Faithful := by
  apply faithful_of_honest
  · intro attempt block room
    change (Stored.copy block room).Honest
    unfold Stored.copy
    split
    · exact Transfer.honest_success _
    · exact Transfer.honest_refusal _ _
  · intro attempt block room length hReport
    change (Stored.copy block room).report = _ at hReport
    change
      Stored.copy (Stored.copy block room).written block.length =
        _
    unfold Stored.copy at hReport ⊢
    split at hReport
    · rename_i hRoom
      simp [hRoom, Transfer.success]
    · cases hReport

theorem Codec.stored_lossless : Codec.stored.Lossless :=
  stored_faithful.lossless

------------------------------------------------------------
-- Refused Attempts
------------------------------------------------------------

/- The codec, but that it refuses one attempt. -/
def Codec.refusingAt
    (codec : Codec)
    (turn : Nat) : Codec :=
  { codec with
    compress := fun attempt block room =>
      if attempt = turn then
        .refusal [] .failed
      else
        codec.compress attempt block room }

/- Nothing is lost by an attempt that is refused. -/
theorem Codec.Faithful.refusingAt
    {codec : Codec}
    (h : codec.Faithful)
    (turn : Nat) :
    (codec.refusingAt turn).Faithful := by
  intro buffer attempt block room length hReport hRoom
  by_cases hTurn : attempt = turn
  · simp [Codec.refusingAt, hTurn, Transfer.refusal] at hReport
  · simp only [Codec.refusingAt, if_neg hTurn] at hReport
    have hRestores :=
      h buffer attempt block room length hReport hRoom
    simpa [packedIn, Codec.refusingAt, hTurn] using
      (⟨hRestores.report, hRestores.written⟩ :
        (codec.refusingAt turn).Restores
          (codec.packedIn buffer attempt block room length)
          block)

------------------------------------------------------------
-- Runs
------------------------------------------------------------

namespace RunLength

/- A run is unpacked as so many equal bytes. -/
theorem unpackFrom_run
    {room count : Nat}
    {plain : Tape}
    (current : UInt8)
    (rest : Bytes)
    (hPos : 0 < count)
    (hLongest : count ≤ longest)
    (hRoom : plain.size + count ≤ room) :
    unpackFrom room plain (UInt8.ofNat count :: current :: rest) =
      unpackFrom room
        (plain.append (List.replicate count current)) rest := by
  have hCount : (UInt8.ofNat count).toNat = count := by
    rw [UInt8.toNat_ofNat']
    unfold longest at hLongest
    omega
  have hSome : UInt8.ofNat count ≠ 0 := by
    intro hZero
    rw [hZero] at hCount
    exact Nat.ne_of_lt hPos hCount
  rw [unpackFrom, if_neg hSome, hCount, if_neg (by omega)]

/-
  Packing adds runs behind what it started with. Unpacked,
  they are the run so far and the rest of the block. The
  induction is on the rest, with any run in progress.
-/
theorem packFrom_spec
    {room count length : Nat}
    {packed : Tape}
    {current : UInt8}
    {rest : Bytes}
    (hPos : 0 < count)
    (hLongest : count ≤ longest)
    (hReport :
      (packFrom room packed current count rest).report =
        .ok length) :
    ∃ runs,
      packFrom room packed current count rest =
        .success (packed.toBytes ++ runs) ∧
      ∀ (plain : Tape) (n : Nat),
        plain.size + count + rest.length ≤ n →
          unpackFrom n plain runs =
            .success
              (plain.toBytes ++
                (List.replicate count current ++ rest)) := by
  induction rest generalizing packed current count with
  | nil =>
    unfold packFrom at hReport ⊢
    split at hReport
    · cases hReport
    · rename_i hRoom
      refine ⟨[UInt8.ofNat count, current], ?_, ?_⟩
      · rw [if_neg hRoom, Tape.toBytes_append]
      · intro plain n hFits
        rw [unpackFrom_run current [] hPos hLongest hFits]
        simp [unpackFrom]
  | cons b rest ih =>
    unfold packFrom at hReport ⊢
    split at hReport
    · rename_i hSame
      rcases hSame with ⟨rfl, hLess⟩
      rcases ih (Nat.succ_pos count) hLess hReport with
        ⟨runs, hPack, hUnpack⟩
      refine ⟨runs, ?_, ?_⟩
      · rw [if_pos ⟨rfl, hLess⟩, hPack]
      · intro plain n hFits
        rw [List.length_cons] at hFits
        rw [hUnpack plain n (by omega), List.replicate_succ']
        simp
    · rename_i hOther
      split at hReport
      · cases hReport
      · rename_i hRoom
        rcases ih Nat.one_pos (by decide) hReport with
          ⟨runs, hPack, hUnpack⟩
        refine
          ⟨UInt8.ofNat count :: current :: runs, ?_, ?_⟩
        · rw [if_neg hOther, if_neg hRoom, hPack]
          simp
        · intro plain n hFits
          rw [List.length_cons] at hFits
          rw [unpackFrom_run current runs hPos hLongest
              (by omega),
            hUnpack _ n (by simp; omega)]
          simp

/- What was packed unpacks to the block. -/
theorem compress_spec
    {block : Bytes}
    {room length : Nat}
    (hReport : (compress block room).report = .ok length) :
    decompress (compress block room).written block.length =
      .success block := by
  cases block with
  | nil => rfl
  | cons b rest =>
    change (packFrom room .empty b 1 rest).report = _ at hReport
    rcases packFrom_spec Nat.one_pos (by decide) hReport with
      ⟨runs, hPack, hUnpack⟩
    have hFits :
        Tape.empty.size + 1 + rest.length ≤
          (b :: rest).length := by
      change 0 + 1 + rest.length ≤ rest.length + 1
      omega
    change
      unpackFrom _ .empty
          (packFrom room .empty b 1 rest).written =
        _
    rw [hPack]
    exact hUnpack .empty _ hFits

/- A report is the number of bytes written. -/
theorem compress_honest
    (block : Bytes)
    (room : Nat) :
    (compress block room).Honest := by
  intro n hReport
  cases block with
  | nil =>
    cases hReport
    rfl
  | cons b rest =>
    change (packFrom room .empty b 1 rest).report = _ at hReport
    change (packFrom room .empty b 1 rest).written.length = n
    rcases packFrom_spec Nat.one_pos (by decide) hReport with
      ⟨runs, hPack, _⟩
    rw [hPack] at hReport ⊢
    exact Transfer.honest_success _ n hReport

theorem unpackFrom_honest
    (room : Nat)
    (plain : Tape)
    (payload : Bytes) :
    (unpackFrom room plain payload).Honest := by
  fun_induction unpackFrom room plain payload with
  | case1 => exact Transfer.honest_success _
  | case2 | case3 | case4 => exact Transfer.honest_refusal _ _
  | case5 _ _ _ _ _ _ ih => exact ih

end RunLength

theorem Codec.runLength_faithful : Codec.runLength.Faithful := by
  apply faithful_of_honest
  · intro attempt block room
    exact RunLength.compress_honest block room
  · intro attempt block room length hReport
    exact RunLength.compress_spec hReport

theorem Codec.runLength_lossless : Codec.runLength.Lossless :=
  runLength_faithful.lossless

theorem Codec.runLength_functional :
    Codec.runLength.Functional :=
  fun payload room =>
    RunLength.unpackFrom_honest room .empty payload

end SplitStream
