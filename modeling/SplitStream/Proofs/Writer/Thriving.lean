import SplitStream.Proofs.Writer.Division
import SplitStream.Proofs.Writer.Keeping
import SplitStream.Proofs.Writer.RawKeeping

/-
  Writers whose codec never fails. Every write outside of a
  finished member succeeds and lays out the full blocks that
  its bytes complete; a flush or a finish lays out what is
  held as a last block.

  Main declarations:
    * `ContainerWriter.Thrives`
    * `ContainerWriter.Thrives.write`
    * `ContainerWriter.Thrives.flush`
    * `ContainerWriter.Thrives.finish`
    * `RawWriter.Thrives`
    * `RawWriter.Thrives.write`
    * `RawWriter.Thrives.flush`
-/

------------------------------------------------------------
-- Container Writers
------------------------------------------------------------

namespace SplitStream

namespace ContainerWriter

open Segment

variable {ω : Type}

/-
  Segments have left the writer, whose codec never fails, and
  it holds less than a block.
-/
structure Thrives
    (receivers : Receivers ω)
    (codec : Codec)
    (fields : Header)
    (blockSize : Nat)
    (writer : ContainerWriter ω)
    (world : ω)
    (captured torn : Bool)
    (segments : List Segment) : Prop where
  stands :
    writer.Stands receivers codec fields world captured torn
      segments
  blockSize_eq : writer.regrouper.blockSize = blockSize
  neverFails : codec.NeverFails blockSize
  held_lt : writer.regrouper.held.size < blockSize

variable
  {receivers : Receivers ω} {codec : Codec} {fields : Header}
  {blockSize : Nat} {writer : ContainerWriter ω}
  {world next : ω} {captured torn : Bool}
  {segments : List Segment}

theorem Thrives.regrouper_neverFails
    (h :
      writer.Thrives receivers codec fields blockSize world
        captured torn segments) :
    writer.regrouper.codec.NeverFails
      writer.regrouper.blockSize := by
  rw [h.stands.codec_eq, h.blockSize_eq]
  exact h.neverFails

theorem Stands.emitted
    (h :
      writer.Stands receivers codec fields world captured torn
        segments) :
    Emitted receivers codec captured segments writer.checksums
      [] (writer.outlet, world) :=
  ⟨by simp, by simpa using h.outlet⟩

/- Into an open member, full blocks are laid out. -/
theorem Thrives.regroup
    (h :
      writer.Thrives receivers codec fields blockSize world
        captured torn segments)
    (hStage : writer.stage = .opened)
    (bytes : Bytes) :
    ∃ writer' next added,
      (onRegrouper
          (Regrouper.write writer.emission bytes)).perform
          (writer, world) =
        (.ok (), writer', next) ∧
      writer'.Thrives receivers codec fields blockSize next
        captured torn (segments ++ added) ∧
      writer'.stage = .opened ∧
      writer.regrouper.held.toBytes ++ bytes =
        (blocks added).flatten ++
          writer'.regrouper.held.toBytes ∧
      ∀ block ∈ blocks added, block.length = blockSize := by
  rcases Regrouper.writeFrom_of_neverFails bytes
    (emission_extends writer receivers codec captured segments)
    h.stands.makes h.regrouper_neverFails h.stands.blockSize_le
    (h.blockSize_eq ▸ h.held_lt) h.stands.emitted with
    ⟨regrouper, ⟨outlet, next⟩, added, hWrite, hIntake, hLt,
      hEmitted⟩
  rw [List.nil_append] at hEmitted
  refine
    ⟨{ writer with outlet := outlet, regrouper := regrouper },
      next, added.map (.frame writer.checksums),
      perform_onRegrouper hWrite, ?_, hStage, ?_, ?_⟩
  · have hSize := hIntake.kin.blockSize.trans h.blockSize_eq
    exact
      { stands :=
          h.stands.regrouped hStage hIntake.kin hIntake.held_le
            hEmitted
        blockSize_eq := hSize
        neverFails := h.neverFails
        held_lt := hSize ▸ hLt }
  · have hBytes := hIntake.bytes
    rw [List.take_length] at hBytes
    rw [hBytes, flatten_blocks, contents_map_frame]
  · intro block hBlock
    rw [blocks_map_frame] at hBlock
    rcases List.mem_map.mp hBlock with ⟨content, hContent, rfl⟩
    exact (hIntake.full content hContent).trans h.blockSize_eq

/- A member is opened, unless it is open. -/
theorem Thrives.openMember
    (h :
      writer.Thrives receivers codec fields blockSize world
        captured torn segments)
    (hStage : writer.stage ≠ .finished) :
    ∃ writer' next added,
      ContainerWriter.openMember.perform (writer, world) =
        (.ok (), writer', next) ∧
      writer'.Thrives receivers codec fields blockSize next
        captured torn (segments ++ added) ∧
      blocks added = [] ∧
      writer'.stage = .opened ∧
      writer'.regrouper = writer.regrouper ∧
      writer'.checksums = writer.checksums := by
  rcases h.stands.openMember hStage with
    ⟨writer', next, added, hOpen, hStands, hNone, hOpened,
      hRegrouper, hChecksums⟩
  refine
    ⟨writer', next, added, hOpen, ?_, hNone, hOpened, hRegrouper,
      hChecksums⟩
  exact
    { stands := hStands
      blockSize_eq := by rw [hRegrouper, h.blockSize_eq]
      neverFails := h.neverFails
      held_lt := by rw [hRegrouper]; exact h.held_lt }

/- A write takes all bytes, unless the member is finished. -/
theorem Thrives.write
    (h :
      writer.Thrives receivers codec fields blockSize world
        captured torn segments)
    (hStage : writer.stage ≠ .finished)
    (bytes : Bytes) :
    ∃ writer' next added,
      (ContainerWriter.write bytes).perform (writer, world) =
        (.ok (), writer', next) ∧
      writer'.Thrives receivers codec fields blockSize next
        captured torn (segments ++ added) ∧
      writer'.stage ≠ .finished ∧
      writer.regrouper.held.toBytes ++ bytes =
        (blocks added).flatten ++
          writer'.regrouper.held.toBytes ∧
      ∀ block ∈ blocks added, block.length = blockSize := by
  unfold ContainerWriter.write
  rw [Step.perform_bind_of_ok (perform_current writer world),
    if_neg hStage]
  by_cases hEmpty : bytes = []
  · refine
      ⟨writer, world, [], ?_, by simpa using h, hStage,
        by simp [hEmpty], by simp [blocks]⟩
    simp [hEmpty]
  rcases h.openMember hStage with
    ⟨opened, middle, front, hOpen, hThrives, hNone, hOpened,
      hRegrouper, hChecksums⟩
  have hEmission : writer.emission = opened.emission := by
    rw [emission, emission, hChecksums]
  rcases hThrives.regroup hOpened bytes with
    ⟨writer', next, back, hRegroup, hLast, hStill, hBytes,
      hFull⟩
  have hBlocks : blocks (front ++ back) = blocks back := by
    rw [blocks_append, hNone, List.nil_append]
  rw [hRegrouper] at hBytes
  refine
    ⟨writer', next, front ++ back, ?_, ?_, by simp [hStill], ?_,
      ?_⟩
  · rw [if_pos (by simpa using hEmpty)]
    apply (Step.perform_bind_of_ok hOpen).trans
    rw [hEmission, hRegroup]
  · rw [← List.append_assoc]
    exact hLast
  · rw [hBlocks, hBytes]
  · rw [hBlocks]
    exact hFull

/- A finished member refuses every write. -/
theorem perform_write_of_finished
    (hStage : writer.stage = .finished)
    (bytes : Bytes)
    (world : ω) :
    (ContainerWriter.write bytes).perform (writer, world) =
      (.error (.misuse .writeAfterFinish), writer, world) := by
  unfold ContainerWriter.write
  rw [Step.perform_bind_of_ok (perform_current writer world),
    if_pos hStage]
  rfl

------------------------------------------------------------
-- Ends Of Blocks
------------------------------------------------------------

/- What is held is laid out as a last block. -/
theorem Thrives.flushFrames
    (h :
      writer.Thrives receivers codec fields blockSize world
        captured torn segments) :
    ∃ writer' next added,
      ContainerWriter.flushFrames.perform (writer, world) =
        (.ok (), writer', next) ∧
      writer'.Thrives receivers codec fields blockSize next
        captured torn (segments ++ added) ∧
      writer'.stage = writer.stage ∧
      writer'.regrouper.held.size = 0 ∧
      blocks added = writer.regrouper.remainder := by
  unfold ContainerWriter.flushFrames
  rw [Step.perform_bind_of_ok (perform_current writer world)]
  by_cases hNone : writer.regrouper.pending = 0
  · refine
      ⟨writer, world, [], ?_, by simpa using h, rfl, hNone,
        (if_pos hNone).symm⟩
    rw [if_neg (not_not_intro hNone)]
    rfl
  have hStage := h.stands.stage_of_held hNone
  rcases Regrouper.flush_of_neverFails
    (emission_extends writer receivers codec captured segments)
    h.stands.makes h.regrouper_neverFails h.stands.blockSize_le
    (h.blockSize_eq ▸ h.held_lt) h.stands.emitted with
    ⟨regrouper, ⟨outlet, next⟩, added, hFlush, hKin, hHeld,
      hBlocks, hEmitted⟩
  rw [List.nil_append] at hEmitted
  have hLe : regrouper.held.size ≤ regrouper.blockSize := by
    omega
  have hLt : regrouper.held.size < blockSize := by
    have := h.held_lt
    omega
  refine
    ⟨{ writer with outlet := outlet, regrouper := regrouper },
      next, added.map (.frame writer.checksums), ?_, ?_, rfl,
      hHeld, ?_⟩
  · rw [if_pos hNone,
      Step.perform_bind_of_ok
        (perform_openMember_of_opened world hStage)]
    exact perform_onRegrouper hFlush
  · exact
      { stands := h.stands.regrouped hStage hKin hLe hEmitted
        blockSize_eq := hKin.blockSize.trans h.blockSize_eq
        neverFails := h.neverFails
        held_lt := hLt }
  · rw [blocks_map_frame, hBlocks]

/- A flush may fail only after what is held was laid out. -/
theorem Thrives.flush
    (h :
      writer.Thrives receivers codec fields blockSize world
        captured torn segments) :
    ∃ result writer' next added,
      ContainerWriter.flush.perform (writer, world) =
        (result, writer', next) ∧
      writer'.Thrives receivers codec fields blockSize next
        captured torn (segments ++ added) ∧
      writer'.stage = writer.stage ∧
      writer'.regrouper.held.size = 0 ∧
      blocks added = writer.regrouper.remainder ∧
      (receivers.Settled → result = .ok ()) := by
  rcases h.flushFrames with
    ⟨flushed, middle, added, hFrames, hFlushed, hStage, hHeld,
      hBlocks⟩
  rcases hFlushed.stands.outlet.flush with
    ⟨result, outlet, next, hFlush, hOutlet, hDrained, _,
      hSettled⟩
  refine
    ⟨result, { flushed with outlet := outlet }, next, added, ?_,
      ?_, hStage, hHeld, hBlocks, hSettled⟩
  · unfold ContainerWriter.flush
    rw [Step.perform_bind_of_ok hFrames]
    exact perform_onOutlet hFlush
  · exact
      { stands := hFlushed.stands.withOutlet hOutlet hDrained
        blockSize_eq := hFlushed.blockSize_eq
        neverFails := h.neverFails
        held_lt := hFlushed.held_lt }

/-
  A finish lays out what is held and a terminator. A finished
  member is not finished again.
-/
theorem Thrives.finish
    (h :
      writer.Thrives receivers codec fields blockSize world
        captured torn segments) :
    ∃ result writer' next torn' added,
      ContainerWriter.finish.perform (writer, world) =
        (result, writer', next) ∧
      writer'.Thrives receivers codec fields blockSize next
        captured torn' (segments ++ added) ∧
      writer'.regrouper.held.size = 0 ∧
      blocks added = writer.regrouper.remainder ∧
      (receivers.Settled →
        torn' = torn ∧
          writer'.stage = .finished ∧
          ∃ n, result = .ok n) := by
  unfold ContainerWriter.finish
  rw [Step.perform_bind_of_ok (perform_current writer world)]
  by_cases hFinished : writer.stage = .finished
  · have hHeld : writer.regrouper.held.size = 0 :=
      (h.stands.idle (by simp [hFinished])).1
    refine
      ⟨.ok writer.outlet.frames, writer, world, torn, [], ?_,
        by simpa using h, hHeld, (if_pos hHeld).symm,
        fun _ => ⟨rfl, hFinished, _, rfl⟩⟩
    rw [if_pos hFinished]
    rfl
  rw [if_neg hFinished]
  rcases h.openMember hFinished with
    ⟨opened, w₁, front, hOpen, hOpened, hNone, hStage,
      hRegrouper, _⟩
  rcases hOpened.flushFrames with
    ⟨flushed, w₂, back, hFlush, hFlushed, hSame, hHeld, hBlocks⟩
  rcases hFlushed.stands.terminate (hSame.trans hStage) hHeld
    with
    ⟨result, outlet, w₃, hRun, hOk, hError, hSettled⟩
  have hAdded :
      blocks (front ++ (back ++ [.terminator])) =
        writer.regrouper.remainder := by
    rw [blocks_append, blocks_append, hNone, hBlocks, hRegrouper]
    exact List.append_nil _
  have hAll :
      segments ++ (front ++ (back ++ [.terminator])) =
        segments ++ front ++ back ++ [.terminator] := by
    simp only [List.append_assoc]
  rw [Step.perform_bind_of_ok hOpen,
    Step.perform_bind_of_ok hFlush, ← bind_assoc]
  cases result with
  | error e =>
    refine
      ⟨.error e, { flushed with outlet := outlet }, w₃, true,
        front ++ (back ++ [.terminator]),
        Step.perform_bind_of_error hRun, ?_, hHeld, hAdded, ?_⟩
    · rw [hAll]
      exact
        { stands := (hError e rfl).2
          blockSize_eq := hFlushed.blockSize_eq
          neverFails := h.neverFails
          held_lt := hFlushed.held_lt }
    · intro hSettles
      cases hSettled hSettles
  | ok _ =>
    refine
      ⟨.ok outlet.frames,
        { flushed with outlet := outlet, stage := .finished },
        w₃, torn, front ++ (back ++ [.terminator]), ?_, ?_, hHeld,
        hAdded, fun _ => ⟨rfl, rfl, _, rfl⟩⟩
    · rw [Step.perform_bind_of_ok hRun]
      rfl
    · rw [hAll]
      exact
        { stands := hOk rfl
          blockSize_eq := hFlushed.blockSize_eq
          neverFails := h.neverFails
          held_lt := hFlushed.held_lt }

/- A reset drops what is held, and lays out nothing. -/
theorem Thrives.reset
    (h :
      writer.Thrives receivers codec fields blockSize world
        captured torn segments) :
    ∃ writer',
      ContainerWriter.reset.perform (writer, world) =
        (.ok (), writer', world) ∧
      writer'.Thrives receivers codec fields blockSize world
        captured torn segments ∧
      writer'.regrouper.held.size = 0 := by
  rcases h.stands.reset with ⟨writer', hReset, hStands, hSame⟩
  refine ⟨writer', hReset, ?_, by rw [hSame]; rfl⟩
  exact
    { stands := hStands
      blockSize_eq := by rw [hSame]; exact h.blockSize_eq
      neverFails := h.neverFails
      held_lt := by
        rw [hSame]
        exact Nat.zero_lt_of_lt h.held_lt }

/- The regrouper of a new writer is a new one. -/
theorem regrouper_of_new
    {channel : Channel ω}
    {options : WriterOptions}
    {clock : UInt32}
    (hNew :
      (new channel codec options clock).perform world =
        (.ok writer, next)) :
    Regrouper.new codec options.blockSize =
      .ok writer.regrouper := by
  rcases parts_of_new hNew with ⟨_, _, hRegrouper, _⟩
  exact hRegrouper

theorem thrives_new
    {options : WriterOptions}
    {clock : UInt32}
    (hCodec : codec.NeverFails options.blockSize)
    (hHolds : receivers.Holds world [] [])
    (hNew :
      (new receivers.data codec options clock).perform world =
        (.ok writer, next)) :
    ∃ segments,
      writer.Thrives receivers codec
        (headerOf codec options clock) options.blockSize next
        false false segments := by
  rcases keeps_new hHolds hNew with ⟨segments, hStands, _⟩
  rcases Regrouper.of_new (regrouper_of_new hNew) with
    ⟨hSize, hHeld⟩
  have hPos := writer.regrouper.blockSize_pos
  exact ⟨segments, hStands, hSize, hCodec, by omega⟩

/- An index is attached before the first frame. -/
theorem Thrives.attach
    (h :
      writer.Thrives receivers codec fields blockSize world
        captured torn segments)
    {attached : ContainerWriter ω}
    (hAttach : writer.attach receivers.index = .ok attached) :
    attached.Thrives receivers codec fields blockSize world true
      torn segments := by
  rcases h.stands.attach hAttach with ⟨hStands, hSame⟩
  refine ⟨hStands, ?_, h.neverFails, ?_⟩
  · rw [hSame]
    exact h.blockSize_eq
  · rw [hSame]
    exact h.held_lt

end ContainerWriter

------------------------------------------------------------
-- Raw Writers
------------------------------------------------------------

namespace RawWriter

variable {ω : Type}

/-
  Frames have left the writer, whose codec never fails, and
  it holds less than a block.
-/
structure Thrives
    (receivers : Receivers ω)
    (codec : Codec)
    (blockSize : Nat)
    (writer : RawWriter ω)
    (world : ω)
    (captured : Bool)
    (contents : List PackedBlock) : Prop where
  stands :
    writer.Stands receivers codec blockSize world captured
      contents
  neverFails : codec.NeverFails blockSize
  held_lt : writer.regrouper.held.size < blockSize

variable
  {receivers : Receivers ω} {codec : Codec} {blockSize : Nat}
  {writer : RawWriter ω} {world : ω} {captured : Bool}
  {contents : List PackedBlock}

theorem Thrives.regrouper_neverFails
    (h :
      writer.Thrives receivers codec blockSize world captured
        contents) :
    writer.regrouper.codec.NeverFails
      writer.regrouper.blockSize := by
  rw [h.stands.codec_eq, h.stands.blockSize_eq]
  exact h.neverFails

theorem Thrives.regrouper_le
    (h :
      writer.Thrives receivers codec blockSize world captured
        contents) :
    writer.regrouper.blockSize ≤ maxBlockSize := by
  rw [h.stands.blockSize_eq]
  exact h.stands.blockSize_le

theorem Thrives.regrouper_lt
    (h :
      writer.Thrives receivers codec blockSize world captured
        contents) :
    writer.regrouper.held.size < writer.regrouper.blockSize := by
  rw [h.stands.blockSize_eq]
  exact h.held_lt

/- A write takes all bytes. -/
theorem Thrives.write
    (h :
      writer.Thrives receivers codec blockSize world captured
        contents)
    (bytes : Bytes) :
    ∃ writer' next added,
      (RawWriter.write bytes).perform (writer, world) =
        (.ok (), writer', next) ∧
      writer'.Thrives receivers codec blockSize next captured
        (contents ++ added) ∧
      writer.regrouper.held.toBytes ++ bytes =
        (added.map PackedBlock.block).flatten ++
          writer'.regrouper.held.toBytes ∧
      ∀ block ∈ added.map PackedBlock.block,
        block.length = blockSize := by
  rcases Regrouper.writeFrom_of_neverFails bytes
    (emission_extends receivers codec
      (blockSize + codec.overhead blockSize) captured contents)
    h.stands.makes h.regrouper_neverFails h.regrouper_le
    h.regrouper_lt h.stands.emitted with
    ⟨regrouper, ⟨outlet, next⟩, added, hWrite, hIntake, hLt,
      hEmitted⟩
  rw [List.nil_append] at hEmitted
  rw [hIntake.kin.blockSize, h.stands.blockSize_eq] at hLt
  refine
    ⟨⟨outlet, regrouper⟩, next, added,
      perform_onRegrouper hWrite, ?_, ?_, ?_⟩
  · exact
      { stands :=
          h.stands.regrouped hIntake.kin (Nat.le_of_lt hLt)
            hEmitted
        neverFails := h.neverFails
        held_lt := hLt }
  · have hBytes := hIntake.bytes
    rw [List.take_length] at hBytes
    rw [hBytes, List.flatMap_def]
  · intro block hBlock
    rcases List.mem_map.mp hBlock with ⟨content, hContent, rfl⟩
    exact
      (hIntake.full content hContent).trans h.stands.blockSize_eq

/- A flush may fail only after what is held was laid out. -/
theorem Thrives.flush
    (h :
      writer.Thrives receivers codec blockSize world captured
        contents) :
    ∃ result writer' next added,
      RawWriter.flush.perform (writer, world) =
        (result, writer', next) ∧
      writer'.Thrives receivers codec blockSize next captured
        (contents ++ added) ∧
      writer'.regrouper.held.size = 0 ∧
      added.map PackedBlock.block = writer.regrouper.remainder ∧
      (receivers.Settled → result = .ok ()) := by
  rcases Regrouper.flush_of_neverFails
    (emission_extends receivers codec
      (blockSize + codec.overhead blockSize) captured contents)
    h.stands.makes h.regrouper_neverFails h.regrouper_le
    h.regrouper_lt h.stands.emitted with
    ⟨regrouper, ⟨outlet, middle⟩, added, hFrames, hKin, hHeld,
      hBlocks, hEmitted⟩
  rw [List.nil_append] at hEmitted
  have hLt : regrouper.held.size < blockSize := by
    have := h.held_lt
    omega
  have hStands :=
    h.stands.regrouped hKin (Nat.le_of_lt hLt) hEmitted
  rcases hStands.outlet.flush with
    ⟨result, outlet', next, hFlush, hOutlet, _, _, hSettled⟩
  refine
    ⟨result, ⟨outlet', regrouper⟩, next, added, ?_, ?_, hHeld,
      hBlocks, hSettled⟩
  · unfold RawWriter.flush
    rw [Step.perform_bind_of_ok (perform_onRegrouper hFrames)]
    exact perform_onOutlet hFlush
  · exact
      { stands := { hStands with outlet := hOutlet }
        neverFails := h.neverFails
        held_lt := hLt }

/- A finish is a flush. -/
theorem Thrives.finish
    (h :
      writer.Thrives receivers codec blockSize world captured
        contents) :
    ∃ result writer' next added,
      RawWriter.finish.perform (writer, world) =
        (result, writer', next) ∧
      writer'.Thrives receivers codec blockSize next captured
        (contents ++ added) ∧
      writer'.regrouper.held.size = 0 ∧
      added.map PackedBlock.block = writer.regrouper.remainder ∧
      (receivers.Settled → ∃ n, result = .ok n) := by
  rcases h.flush with
    ⟨result, writer', next, added, hFlush, hThrives, hHeld,
      hBlocks, hSettled⟩
  unfold RawWriter.finish
  cases result with
  | error e =>
    refine
      ⟨.error e, writer', next, added,
        Step.perform_bind_of_error hFlush, hThrives, hHeld,
        hBlocks, ?_⟩
    intro hSettles
    cases hSettled hSettles
  | ok _ =>
    refine
      ⟨.ok writer'.outlet.frames, writer', next, added, ?_,
        hThrives, hHeld, hBlocks, fun _ => ⟨_, rfl⟩⟩
    rw [Step.perform_bind_of_ok hFlush]
    rfl

/- A reset drops what is held, and lays out nothing. -/
theorem Thrives.reset
    (h :
      writer.Thrives receivers codec blockSize world captured
        contents) :
    ∃ writer',
      RawWriter.reset.perform (writer, world) =
        (.ok (), writer', world) ∧
      writer'.Thrives receivers codec blockSize world captured
        contents ∧
      writer'.regrouper.held.size = 0 := by
  have hPos := Nat.zero_lt_of_lt h.held_lt
  refine
    ⟨{ writer with regrouper := writer.regrouper.reset }, rfl, ?_,
      rfl⟩
  exact
    { stands := { h.stands with held_le := Nat.zero_le _ }
      neverFails := h.neverFails
      held_lt := hPos }

theorem thrives_new
    (hCodec : codec.NeverFails blockSize)
    (hHolds : receivers.Holds world [] [])
    (hNew : new receivers.data codec blockSize = .ok writer) :
    writer.Thrives receivers codec blockSize world false [] := by
  rcases stands_new hHolds hNew with ⟨hStands, hHeld⟩
  have hPos := writer.regrouper.blockSize_pos
  rw [hStands.blockSize_eq] at hPos
  refine ⟨hStands, hCodec, ?_⟩
  rw [hHeld]
  exact hPos

/- An index is attached before the first frame. -/
theorem Thrives.attach
    (h :
      writer.Thrives receivers codec blockSize world captured
        contents)
    {attached : RawWriter ω}
    (hAttach : writer.attach receivers.index = .ok attached) :
    attached.Thrives receivers codec blockSize world true
      contents := by
  rcases h.stands.attach hAttach with ⟨hStands, hSame⟩
  refine ⟨hStands, h.neverFails, ?_⟩
  rw [hSame]
  exact h.held_lt

end RawWriter

end SplitStream
