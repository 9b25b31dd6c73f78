import SplitStream.Proofs.Raw.Layout
import SplitStream.Proofs.Writer.Outlets
import SplitStream.Proofs.Writer.Regrouping
import SplitStream.Writer.Raw

/-
  Writers of raw streams seen from the data they have taken.
  The data is in the frames that were laid out and in the
  bytes held over. No call can damage a raw stream: it has no
  terminators, and every frame that left is whole.

  Main declarations:
    * `RawWriter.Stands`
    * `RawWriter.Keeps`
    * `RawWriter.Keeps.write`
    * `RawWriter.Keeps.flush`
    * `RawWriter.Keeps.finish`
    * `RawWriter.Keeps.close`
    * `RawWriter.Keeps.reset`
    * `RawWriter.Keeps.attach`
    * `RawWriter.keeps_new`
-/

------------------------------------------------------------
-- Standing Writers
------------------------------------------------------------

namespace SplitStream

namespace RawWriter

variable {ω α : Type}

/-
  Frames have left the writer, each with what the codec made
  of a block in the buffer of the writer.
-/
structure Stands
    (receivers : Receivers ω)
    (codec : Codec)
    (blockSize : Nat)
    (writer : RawWriter ω)
    (world : ω)
    (captured : Bool)
    (contents : List PackedBlock) : Prop where
  outlet :
    writer.outlet.Carries receivers world captured
      (RawStream.layout contents) (RawStream.offsets 0 contents)
  codec_eq : writer.regrouper.codec = codec
  blockSize_eq : writer.regrouper.blockSize = blockSize
  blockSize_le : blockSize ≤ maxBlockSize
  held_le : writer.regrouper.held.size ≤ blockSize
  made :
    ∀ content ∈ contents,
      content.Fits ∧
        codec.MakesWithin (blockSize + codec.overhead blockSize)
          content

/- The data of a writer: what it laid out, and what it holds. -/
def Keeps
    (receivers : Receivers ω)
    (codec : Codec)
    (blockSize : Nat)
    (captured : Bool)
    (writer : RawWriter ω)
    (world : ω)
    (kept : Bytes) : Prop :=
  ∃ contents,
    writer.Stands receivers codec blockSize world captured
      contents ∧
    RawStream.data contents ++ writer.regrouper.held.toBytes =
      kept

variable
  {receivers : Receivers ω} {codec : Codec} {blockSize : Nat}
  {captured : Bool} {writer : RawWriter ω} {world next : ω}
  {contents : List PackedBlock} {kept : Bytes}

theorem perform_onOutlet
    {action : Action (Outlet ω × ω) α}
    {result : Except Error α}
    {outlet : Outlet ω}
    (h :
      action.perform (writer.outlet, world) =
        (result, outlet, next)) :
    (onOutlet action).perform (writer, world) =
      (result, { writer with outlet := outlet }, next) := by
  simp [onOutlet, h]

theorem perform_onRegrouper
    {action : Action (Regrouper × Outlet ω × ω) α}
    {result : Except Error α}
    {regrouper : Regrouper}
    {outlet : Outlet ω}
    (h :
      action.perform (writer.regrouper, writer.outlet, world) =
        (result, regrouper, outlet, next)) :
    (onRegrouper action).perform (writer, world) =
      (result, ⟨outlet, regrouper⟩, next) := by
  simp [onRegrouper, h]

theorem Keeps.blockSize_le
    (h :
      Keeps receivers codec blockSize captured writer world
        kept) :
    blockSize ≤ maxBlockSize := by
  rcases h with ⟨contents, hStands, _⟩
  exact hStands.blockSize_le

------------------------------------------------------------
-- Frames
------------------------------------------------------------

/- Blocks have left an outlet as frames behind others. -/
def Emitted
    (receivers : Receivers ω)
    (codec : Codec)
    (room : Nat)
    (captured : Bool)
    (contents added : List PackedBlock)
    (state : Outlet ω × ω) : Prop :=
  (∀ content ∈ added,
    content.Fits ∧ codec.MakesWithin room content) ∧
    state.1.Carries receivers state.2 captured
      (RawStream.layout (contents ++ added))
      (RawStream.offsets 0 (contents ++ added))

/- The frame of a block always leaves. -/
theorem emission_extends
    (receivers : Receivers ω)
    (codec : Codec)
    (room : Nat)
    (captured : Bool)
    (contents : List PackedBlock) :
    Emission.Extends (Outlet.emit Frame.rawPieces)
      (codec.MakesWithin room)
      (Emitted receivers codec room captured contents)
      (fun _ => False) := by
  intro added content state hEmitted hFits hMakes
  rcases state with ⟨outlet, world⟩
  rcases hEmitted with ⟨hAdded, hOutlet⟩
  rcases hOutlet.emit Frame.rawPieces content.block
    content.packed content.length_rawEncode_pos with
    ⟨outlet', next, hEmit, hNext⟩
  have hEncode :
      (Frame.rawPieces content.block content.packed).flatten =
        content.rawEncode :=
    rfl
  rw [hEncode] at hNext
  left
  rw [hEmit]
  refine ⟨rfl, ?_, ?_⟩
  · intro later hLater
    rcases List.mem_append.mp hLater with hOld | hNew
    · exact hAdded later hOld
    · rw [List.mem_singleton.mp hNew]
      exact ⟨hFits, hMakes⟩
  · rw [← List.append_assoc, RawStream.layout_append,
      RawStream.offsets_append]
    simpa [RawStream.offsets] using hNext

/- What the regrouper makes, the codec makes in its buffer. -/
theorem Stands.makes
    (h :
      writer.Stands receivers codec blockSize world captured
        contents)
    (content : PackedBlock)
    (hMade : writer.regrouper.Makes content) :
    codec.MakesWithin (blockSize + codec.overhead blockSize)
      content := by
  rw [← h.blockSize_eq, ← h.codec_eq]
  exact hMade

theorem Stands.emitted
    (h :
      writer.Stands receivers codec blockSize world captured
        contents) :
    Emitted receivers codec (blockSize + codec.overhead blockSize)
      captured contents [] (writer.outlet, world) :=
  ⟨by simp, by simpa using h.outlet⟩

/- Frames have left, and other bytes are held. -/
theorem Stands.regrouped
    (h :
      writer.Stands receivers codec blockSize world captured
        contents)
    {regrouper : Regrouper}
    (hKin : writer.regrouper.Kin regrouper)
    (hHeld : regrouper.held.size ≤ blockSize)
    {added : List PackedBlock}
    {outlet : Outlet ω}
    (hEmitted :
      Emitted receivers codec
        (blockSize + codec.overhead blockSize) captured contents
        added (outlet, next)) :
    Stands receivers codec blockSize ⟨outlet, regrouper⟩ next
      captured (contents ++ added) where
  outlet := hEmitted.2
  codec_eq := hKin.codec.trans h.codec_eq
  blockSize_eq := hKin.blockSize.trans h.blockSize_eq
  blockSize_le := h.blockSize_le
  held_le := hHeld
  made := by
    intro content hContent
    rcases List.mem_append.mp hContent with hOld | hNew
    · exact h.made content hOld
    · exact hEmitted.1 content hNew

------------------------------------------------------------
-- Writing
------------------------------------------------------------

/-
  A write takes bytes, and its counters tell how many. It
  takes all of them if it succeeds.
-/
theorem Keeps.write
    (h : Keeps receivers codec blockSize captured writer world kept)
    (bytes : Bytes) :
    ∃ result writer' next taken,
      (RawWriter.write bytes).perform (writer, world) =
        (result, writer', next) ∧
      Keeps receivers codec blockSize captured writer' next
        (kept ++ bytes.take taken) ∧
      writer.outlet.frames * writer.regrouper.blockSize +
          writer.regrouper.pending + taken =
        writer'.outlet.frames * writer.regrouper.blockSize +
          writer'.regrouper.pending ∧
      (result = .ok () → taken = bytes.length) := by
  rcases h with ⟨contents, hStands, hKept⟩
  have hSize := hStands.blockSize_le
  have hHeld := hStands.held_le
  rw [← hStands.blockSize_eq] at hSize hHeld
  rcases Regrouper.writes_of_extends bytes
    (emission_extends receivers codec
      (blockSize + codec.overhead blockSize) captured contents)
    hStands.makes hSize hHeld hStands.emitted with
    ⟨result, regrouper, ⟨outlet, next⟩, taken, added, hWrite,
      hIntake, hEmitted, hAll, _⟩
  rw [List.nil_append] at hEmitted
  have hLe := hIntake.held_le
  rw [hIntake.kin.blockSize, hStands.blockSize_eq] at hLe
  refine
    ⟨result, ⟨outlet, regrouper⟩, next, taken,
      perform_onRegrouper hWrite,
      ⟨_, hStands.regrouped hIntake.kin hLe hEmitted, ?_⟩, ?_,
      hAll⟩
  · have hBytes := hIntake.bytes
    change _ = RawStream.data added ++ _ at hBytes
    rw [RawStream.data_append, List.append_assoc, ← hBytes,
      ← List.append_assoc, hKept]
  · have hFrames : outlet.frames = _ := hEmitted.2.frames
    rw [hFrames, hStands.outlet.frames, RawStream.length_offsets,
      RawStream.length_offsets, List.length_append, Nat.add_mul,
      Nat.add_assoc, hIntake.count, Nat.add_assoc]

------------------------------------------------------------
-- Flushing
------------------------------------------------------------

/- The index and the channel are flushed. -/
theorem Keeps.flushOutlet
    (h :
      Keeps receivers codec blockSize captured writer world
        kept) :
    ∃ result outlet next,
      (onOutlet Outlet.flush).perform (writer, world) =
        (result, { writer with outlet := outlet }, next) ∧
      Keeps receivers codec blockSize captured
        { writer with outlet := outlet } next kept := by
  rcases h with ⟨contents, hStands, hKept⟩
  rcases hStands.outlet.flush with
    ⟨result, outlet, next, hFlush, hOutlet, _⟩
  exact
    ⟨result, outlet, next, perform_onOutlet hFlush, contents,
      { hStands with outlet := hOutlet }, hKept⟩

/- What is held over becomes a frame, or is still held. -/
theorem Keeps.flushFrames
    (h :
      Keeps receivers codec blockSize captured writer world
        kept) :
    ∃ result writer' next,
      (onRegrouper
          (Regrouper.flush (Outlet.emit Frame.rawPieces))).perform
          (writer, world) =
        (result, writer', next) ∧
      Keeps receivers codec blockSize captured writer' next
        kept := by
  rcases h with ⟨contents, hStands, hKept⟩
  have hSize := hStands.blockSize_le
  have hHeld := hStands.held_le
  rw [← hStands.blockSize_eq] at hSize hHeld
  rcases Regrouper.flush_of_extends
    (emission_extends receivers codec
      (blockSize + codec.overhead blockSize) captured contents)
    hStands.makes hSize hHeld hStands.emitted with
    ⟨result, regrouper, ⟨outlet, next⟩, added, hFlush, hKin,
      hLe, hEmitted, hBytes, _, _⟩
  rw [List.nil_append] at hEmitted
  refine
    ⟨result, ⟨outlet, regrouper⟩, next,
      perform_onRegrouper hFlush, _,
      hStands.regrouped hKin
        (Nat.le_trans hLe hStands.held_le) hEmitted, ?_⟩
  change _ = RawStream.data added ++ _ at hBytes
  rw [RawStream.data_append, List.append_assoc, ← hBytes, hKept]

/- A flush changes nothing of the data. -/
theorem Keeps.flush
    (h :
      Keeps receivers codec blockSize captured writer world
        kept) :
    ∃ result writer' next,
      RawWriter.flush.perform (writer, world) =
        (result, writer', next) ∧
      Keeps receivers codec blockSize captured writer' next
        kept := by
  rcases h.flushFrames with
    ⟨result, flushed, middle, hFlush, hFlushed⟩
  unfold RawWriter.flush
  cases result with
  | error e =>
    exact
      ⟨_, _, middle, Step.perform_bind_of_error hFlush, hFlushed⟩
  | ok _ =>
    rcases hFlushed.flushOutlet with
      ⟨result, outlet', next, hOutlet, hKeeps⟩
    refine ⟨result, _, next, ?_, hKeeps⟩
    rw [Step.perform_bind_of_ok hFlush, hOutlet]

/- A finish is a flush. -/
theorem Keeps.finish
    (h :
      Keeps receivers codec blockSize captured writer world
        kept) :
    ∃ result writer' next,
      RawWriter.finish.perform (writer, world) =
        (result, writer', next) ∧
      Keeps receivers codec blockSize captured writer' next
        kept := by
  rcases h.flush with
    ⟨result, writer', next, hFlush, hKeeps⟩
  unfold RawWriter.finish
  cases result with
  | error e =>
    exact
      ⟨_, writer', next, Step.perform_bind_of_error hFlush,
        hKeeps⟩
  | ok _ =>
    refine ⟨.ok writer'.outlet.frames, writer', next, ?_, hKeeps⟩
    rw [Step.perform_bind_of_ok hFlush]
    rfl

/- A close is a finish, with a last flush of the index. -/
theorem Keeps.close
    (h :
      Keeps receivers codec blockSize captured writer world
        kept) :
    ∃ result writer' next,
      RawWriter.close.perform (writer, world) =
        (result, writer', next) ∧
      Keeps receivers codec blockSize captured writer' next
        kept := by
  rcases h.finish with
    ⟨result, finished, middle, hFinish, contents, hStands,
      hKept⟩
  unfold RawWriter.close
  cases result with
  | error e =>
    exact
      ⟨_, finished, middle, Step.perform_bind_of_error hFinish,
        contents, hStands, hKept⟩
  | ok _ =>
    rcases hStands.outlet.flushCapture with
      ⟨outlet, next, hCapture, hOutlet, _⟩
    refine
      ⟨.ok (), { finished with outlet := outlet }, next, ?_,
        contents, { hStands with outlet := hOutlet }, hKept⟩
    rw [Step.perform_bind_of_ok hFinish,
      perform_onOutlet hCapture]

------------------------------------------------------------
-- Other Steps
------------------------------------------------------------

/- A reset drops what is held over. -/
theorem Keeps.reset
    (h :
      Keeps receivers codec blockSize captured writer world
        kept) :
    ∃ writer',
      RawWriter.reset.perform (writer, world) =
        (.ok (), writer', world) ∧
      Keeps receivers codec blockSize captured writer' world
        (kept.take
          (kept.length - writer.regrouper.pending)) := by
  rcases h with ⟨contents, hStands, hKept⟩
  have hTake :
      kept.take (kept.length - writer.regrouper.pending) =
        RawStream.data contents := by
    rw [← hKept, Regrouper.pending, Tape.size_eq_length,
      List.length_append, Nat.add_sub_cancel, List.take_left]
  refine
    ⟨{ writer with regrouper := writer.regrouper.reset }, rfl,
      contents, { hStands with held_le := Nat.zero_le _ }, ?_⟩
  rw [hTake]
  exact List.append_nil _

/- An index is attached before the first frame. -/
theorem Stands.attach
    (h :
      writer.Stands receivers codec blockSize world captured
        contents)
    {attached : RawWriter ω}
    (hAttach : writer.attach receivers.index = .ok attached) :
    attached.Stands receivers codec blockSize world true
        contents ∧
      attached.regrouper = writer.regrouper := by
  rcases outlet_of_attach hAttach with ⟨outlet, hOutlet, rfl⟩
  exact ⟨{ h with outlet := (h.outlet.attach hOutlet).1 }, rfl⟩

theorem Keeps.attach
    (h :
      Keeps receivers codec blockSize captured writer world
        kept)
    {attached : RawWriter ω}
    (hAttach : writer.attach receivers.index = .ok attached) :
    Keeps receivers codec blockSize true attached world kept := by
  rcases h with ⟨contents, hStands, hKept⟩
  rcases hStands.attach hAttach with ⟨hAttached, hSame⟩
  exact ⟨contents, hAttached, hSame ▸ hKept⟩

/- A new writer has laid out nothing, and holds nothing. -/
theorem stands_new
    (hHolds : receivers.Holds world [] [])
    (hNew : new receivers.data codec blockSize = .ok writer) :
    writer.Stands receivers codec blockSize world false [] ∧
      writer.regrouper.held = .empty := by
  have hSize : 0 < blockSize ∧ blockSize ≤ maxBlockSize := by
    apply Decidable.byContradiction
    intro hSize
    simp [new, Regrouper.new, hSize, bind, Except.bind] at hNew
  simp only [new, Regrouper.new, hSize, and_self, dite_true, bind,
    Except.bind, pure, Except.pure, Except.ok.injEq] at hNew
  subst hNew
  refine ⟨?_, rfl⟩
  exact
    { outlet := Outlet.Carries.new hHolds
      codec_eq := rfl
      blockSize_eq := rfl
      blockSize_le := hSize.2
      held_le := Nat.zero_le _
      made := by simp }

theorem keeps_new
    (hHolds : receivers.Holds world [] [])
    (hNew : new receivers.data codec blockSize = .ok writer) :
    Keeps receivers codec blockSize false writer world [] := by
  rcases stands_new hHolds hNew with ⟨hStands, hHeld⟩
  refine ⟨[], hStands, ?_⟩
  rw [hHeld]
  rfl

end RawWriter

end SplitStream
