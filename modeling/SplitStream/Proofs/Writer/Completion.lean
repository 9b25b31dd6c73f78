import SplitStream.Proofs.Writer.Stretches
import SplitStream.Proofs.Writer.Thriving

/-
  Writers that come to their end. Where neither the codec nor
  a channel fails, bytes that are written piece by piece are
  all taken, and what is left when they end is laid out by
  the finish; so the blocks that were laid out are those into
  which the bytes are divided, however they came.

  Main declarations:
    * `FrameWriter.Fulfils`
    * `FrameWriter.Fulfils.copies`
    * `ContainerWriter.fulfils`
    * `ContainerWriter.Ended.close`
    * `RawWriter.fulfils`
    * `RawWriter.Ended.close`
-/

------------------------------------------------------------
-- Any Writers
------------------------------------------------------------

namespace SplitStream

namespace FrameWriter

variable {ω : Type} {W : Type → Type}

/- What is done with a writer returns the writer it leaves. -/
theorem perform_withWriter
    {α : Type}
    {action : Action (W ω × ω) α}
    {writer : W ω}
    {world : ω}
    {a : α}
    {next : W ω × ω}
    (h : action.perform (writer, world) = (.ok a, next)) :
    (withWriter writer action).perform world =
      (.ok (a, next.1), next.2) := by
  simp only [withWriter, Step.perform_ofStep, h]
  rfl

variable [FrameWriter W]

/-
  Writers of a kind do not fail. A write lays out the full
  blocks that its bytes complete and holds the others; a
  finish lays out what is held.
-/
structure Fulfils
    (size : Nat)
    (Open Ended : W ω × ω → List Bytes → Prop) : Prop where
  held_lt :
    ∀ s blocks,
      Open s blocks → (regrouper s.1).held.size < size
  write :
    ∀ s blocks bytes,
      Open s blocks →
        ∃ next added,
          (write bytes).perform s = (.ok (), next) ∧
          Open next (blocks ++ added) ∧
          (regrouper s.1).held.toBytes ++ bytes =
            added.flatten ++ (regrouper next.1).held.toBytes ∧
          ∀ block ∈ added, block.length = size
  finish :
    ∀ s blocks,
      Open s blocks →
        ∃ n next,
          finish.perform s = (.ok n, next) ∧
          Ended next (blocks ++ (regrouper s.1).remainder)

variable
  {size : Nat} {Open Ended : W ω × ω → List Bytes → Prop}
  {s : W ω × ω} {blocks : List Bytes}

/- Pieces are taken one after another. -/
theorem Fulfils.writeAll
    (h : Fulfils size Open Ended)
    (hOpen : Open s blocks)
    (pieces : List Bytes) :
    ∃ next added,
      (FrameWriter.writeAll pieces).perform s =
        (.ok (), next) ∧
      Open next (blocks ++ added) ∧
      (regrouper s.1).held.toBytes ++ pieces.flatten =
        added.flatten ++ (regrouper next.1).held.toBytes ∧
      ∀ block ∈ added, block.length = size := by
  induction pieces generalizing s blocks with
  | nil =>
    refine ⟨s, [], rfl, ?_, ?_, by simp⟩
    · rwa [List.append_nil]
    · simp
  | cons piece pieces ih =>
    rcases h.write s blocks piece hOpen with
      ⟨middle, front, hPiece, hMiddle, hFirst, hFront⟩
    rcases ih hMiddle with
      ⟨next, back, hRest, hNext, hLast, hBack⟩
    refine ⟨next, front ++ back, ?_, ?_, ?_, ?_⟩
    · rw [FrameWriter.writeAll,
        Step.perform_bind_of_ok hPiece, hRest]
    · rwa [← List.append_assoc]
    · rw [List.flatten_cons, ← List.append_assoc, hFirst,
        List.append_assoc, hLast, List.flatten_append,
        List.append_assoc]
    · intro block hBlock
      rcases List.mem_append.mp hBlock with hOld | hNew
      · exact hFront block hOld
      · exact hBack block hNew

/-
  A writer that holds nothing takes all pieces and finishes.
  Their bytes are divided into the blocks it has laid out.
-/
theorem Fulfils.copies
    (h : Fulfils size Open Ended)
    (hOpen : Open s [])
    (hNone : (regrouper s.1).held.size = 0)
    (pieces : List Bytes) :
    ∃ written n finished blocks,
      (FrameWriter.writeAll pieces).perform s =
        (.ok (), written) ∧
      FrameWriter.finish.perform written = (.ok n, finished) ∧
      Ended finished blocks ∧
      Bytes.DividedInto size pieces.flatten blocks := by
  rcases h.writeAll hOpen pieces with
    ⟨written, added, hWrite, hWritten, hBytes, hFull⟩
  rw [List.nil_append] at hWritten
  rcases h.finish written added hWritten with
    ⟨n, finished, hFinish, hEnded⟩
  refine
    ⟨written, n, finished, _, hWrite, hFinish, hEnded, ?_⟩
  rw [Tape.toBytes_eq_nil hNone, List.nil_append] at hBytes
  rw [hBytes]
  have hRest := h.held_lt written added hWritten
  rw [Tape.size_eq_length] at hRest
  apply Bytes.dividedInto_append hFull hRest
  rw [Regrouper.remainder, Tape.size_eq_length]

end FrameWriter

------------------------------------------------------------
-- Container Writers
------------------------------------------------------------

namespace ContainerWriter

open Segment

variable
  {ω : Type} {receivers : Receivers ω} {codec : Codec}
  {fields : Header} {blockSize : Nat} {captured : Bool}

/- A writer that takes bytes has laid out some blocks. -/
def Taking
    (receivers : Receivers ω)
    (codec : Codec)
    (fields : Header)
    (blockSize : Nat)
    (captured : Bool)
    (s : ContainerWriter ω × ω)
    (blocks : List Bytes) : Prop :=
  ∃ segments,
    s.1.Thrives receivers codec fields blockSize s.2 captured
      false segments ∧
    s.1.stage ≠ .finished ∧
    Segment.blocks segments = blocks

/- A writer that has finished has laid out some blocks. -/
def Ended
    (receivers : Receivers ω)
    (codec : Codec)
    (fields : Header)
    (captured : Bool)
    (s : ContainerWriter ω × ω)
    (blocks : List Bytes) : Prop :=
  ∃ segments,
    s.1.Stands receivers codec fields s.2 captured false
      segments ∧
    s.1.stage = .finished ∧
    Segment.blocks segments = blocks

/- A new writer takes bytes, and holds none. -/
theorem taking_new
    {options : WriterOptions}
    {world : ω}
    (clock : UInt32)
    (hHolds : receivers.Holds world [] [])
    (hSize :
      0 < options.blockSize ∧
        options.blockSize ≤ maxBlockSize)
    (hCodec : codec.NeverFails options.blockSize) :
    ∃ writer next,
      (new receivers.data codec options clock).perform world =
        (.ok writer, next) ∧
      Taking receivers codec (headerOf codec options clock)
        options.blockSize false (writer, next) [] ∧
      writer.regrouper.held.size = 0 := by
  rcases stands_new clock hHolds hSize with
    ⟨writer, next, hNew, hStands, hStage, hHeld, hBlockSize⟩
  have hNone : writer.regrouper.held.size = 0 := by
    rw [hHeld]
    rfl
  have hThrives :
      writer.Thrives receivers codec
        (headerOf codec options clock) options.blockSize next
        false false [.header (headerOf codec options clock)] :=
    { stands := hStands
      blockSize_eq := hBlockSize
      neverFails := hCodec
      held_lt := by
        rw [hNone]
        exact hSize.1 }
  exact
    ⟨writer, next, hNew, ⟨_, hThrives, by simp [hStage], rfl⟩,
      hNone⟩

/- A writer without an index may be given other receivers. -/
theorem Taking.transfer
    {s : ContainerWriter ω × ω}
    {blocks : List Bytes}
    (h :
      Taking receivers codec fields blockSize false s blocks) :
    ∃ bytes,
      receivers.Holds s.2 bytes [] ∧
      ∀ (others : Receivers ω) next,
        receivers.data = others.data →
        others.Holds next bytes [] →
          Taking others codec fields blockSize false (s.1, next)
            blocks := by
  rcases h with ⟨segments, hThrives, hStage, hBlocks⟩
  rcases hThrives.stands.transfer with ⟨hHolds, hSame⟩
  refine ⟨_, hHolds, ?_⟩
  intro others next hData hNext
  refine ⟨segments, ?_, hStage, hBlocks⟩
  exact
    { hThrives with stands := hSame others next hData hNext }

/- An index is attached to a writer without frames. -/
theorem Taking.attach
    {s : ContainerWriter ω × ω}
    (h : Taking receivers codec fields blockSize captured s []) :
    ∃ attached,
      s.1.attach receivers.index = .ok attached ∧
      Taking receivers codec fields blockSize true
        (attached, s.2) [] ∧
      attached.regrouper = s.1.regrouper := by
  rcases h with ⟨segments, hThrives, hStage, hBlocks⟩
  have hFrames : ¬ 0 < s.1.outlet.frames := by
    rw [hThrives.stands.outlet.frames, ← length_blocks, hBlocks]
    exact Nat.lt_irrefl 0
  let outlet : Outlet ω :=
    { s.1.outlet with capture := some (.new receivers.index) }
  have hAttach :
      s.1.attach receivers.index =
        .ok { s.1 with outlet := outlet } := by
    unfold ContainerWriter.attach Outlet.attach
    rw [if_neg hFrames]
    rfl
  exact
    ⟨_, hAttach,
      ⟨segments, hThrives.attach hAttach, hStage, hBlocks⟩, rfl⟩

theorem fulfils
    (hSettled : receivers.Settled) :
    FrameWriter.Fulfils blockSize
      (Taking receivers codec fields blockSize captured)
      (Ended receivers codec fields captured) where
  held_lt := by
    rintro s blocks ⟨segments, hThrives, _, _⟩
    exact hThrives.held_lt
  write := by
    rintro ⟨writer, world⟩ blocks bytes
      ⟨segments, hThrives, hStage, rfl⟩
    rcases hThrives.write hStage bytes with
      ⟨writer', next, added, hWrite, hNext, hOpen, hBytes,
        hFull⟩
    exact
      ⟨(writer', next), Segment.blocks added, hWrite,
        ⟨_, hNext, hOpen, blocks_append segments added⟩, hBytes,
        hFull⟩
  finish := by
    rintro ⟨writer, world⟩ blocks
      ⟨segments, hThrives, hStage, rfl⟩
    rcases hThrives.finish with
      ⟨result, writer', next, torn, added, hFinish, hNext, _,
        hBlocks, hSettles⟩
    rcases hSettles hSettled with ⟨rfl, hFinished, n, rfl⟩
    refine
      ⟨n, (writer', next), hFinish, _, hNext.stands, hFinished,
        ?_⟩
    rw [blocks_append, hBlocks]
    rfl

/-
  What has been received of a container and of its index when
  its writer is closed.
-/
structure Received
    (receivers : Receivers ω)
    (codec : Codec)
    (fields : Header)
    (captured : Bool)
    (blocks : List Bytes)
    (segments : List Segment)
    (world : ω) : Prop where
  complete : Complete segments
  headers :
    ∀ other, .header other ∈ segments → other = fields
  made : ∀ segment ∈ segments, segment.MadeBy codec
  blocks_eq : Segment.blocks segments = blocks
  holds :
    receivers.Holds world (layout segments)
      (if captured then
        (offsets 0 segments).flatMap FrameIndex.encodeOffset
      else
        [])

/- To close a finished writer does not fail. -/
theorem Ended.close
    {s : ContainerWriter ω × ω}
    {blocks : List Bytes}
    (h : Ended receivers codec fields captured s blocks)
    (hSettled : receivers.Settled) :
    ∃ segments next,
      close.perform s = (.ok (), next) ∧
      Received receivers codec fields captured blocks segments
        next.2 := by
  rcases s with ⟨writer, world⟩
  rcases h with ⟨segments, hStands, hStage, hBlocks⟩
  have hOpen : writer.stage ≠ .opened := by
    rw [hStage]
    simp
  rcases hStands.outlet.flushCapture with
    ⟨outlet, middle, hCapture, hOutlet, hDrained⟩
  rcases hOutlet.flushChannel with
    ⟨result, next, hChannel, hLast, _, hOk⟩
  cases hOk hSettled
  refine
    ⟨segments, ({ writer with outlet := outlet }, next), ?_, ?_⟩
  · unfold ContainerWriter.close
    rw [Step.perform_bind_of_ok (perform_current writer world),
      if_neg hOpen]
    exact
      (Step.perform_bind_of_ok (perform_onOutlet hCapture)).trans
        (perform_onOutlet hChannel)
  · exact
      { complete :=
          hStands.trail.complete hStands.regular hStands.flags
            hOpen
        headers := by
          intro other hOther
          rw [hStands.trail.header_eq other hOther,
            hStands.header_eq]
        made := hStands.made
        blocks_eq := hBlocks
        holds :=
          (Outlet.stands_iff_carries.mp hLast).received
            hDrained }

end ContainerWriter

------------------------------------------------------------
-- Raw Writers
------------------------------------------------------------

namespace RawWriter

variable
  {ω : Type} {receivers : Receivers ω} {codec : Codec}
  {blockSize : Nat} {captured : Bool}

/- A writer has laid out some blocks. -/
def Taking
    (receivers : Receivers ω)
    (codec : Codec)
    (blockSize : Nat)
    (captured : Bool)
    (s : RawWriter ω × ω)
    (blocks : List Bytes) : Prop :=
  ∃ contents,
    s.1.Thrives receivers codec blockSize s.2 captured
      contents ∧
    contents.map PackedBlock.block = blocks

/- A writer that holds nothing has laid out some blocks. -/
def Ended
    (receivers : Receivers ω)
    (codec : Codec)
    (blockSize : Nat)
    (captured : Bool)
    (s : RawWriter ω × ω)
    (blocks : List Bytes) : Prop :=
  Taking receivers codec blockSize captured s blocks ∧
    s.1.regrouper.held.size = 0

/- Only its block size can keep a writer from being made. -/
theorem exists_new
    (channel : Channel ω)
    (codec : Codec)
    (hSize : 0 < blockSize ∧ blockSize ≤ maxBlockSize) :
    ∃ writer, new channel codec blockSize = .ok writer := by
  simp [new, Regrouper.new, hSize, bind, Except.bind, pure,
    Except.pure]

/- A new writer takes bytes, and holds none. -/
theorem taking_new
    {writer : RawWriter ω}
    {world : ω}
    (hHolds : receivers.Holds world [] [])
    (hNew : new receivers.data codec blockSize = .ok writer)
    (hCodec : codec.NeverFails blockSize) :
    Taking receivers codec blockSize false (writer, world) [] ∧
      writer.regrouper.held.size = 0 := by
  refine ⟨⟨[], thrives_new hCodec hHolds hNew, rfl⟩, ?_⟩
  rw [(stands_new hHolds hNew).2]
  rfl

/- An index is attached to a writer without frames. -/
theorem Taking.attach
    {s : RawWriter ω × ω}
    (h : Taking receivers codec blockSize captured s []) :
    ∃ attached,
      s.1.attach receivers.index = .ok attached ∧
      Taking receivers codec blockSize true (attached, s.2)
        [] ∧
      attached.regrouper = s.1.regrouper := by
  rcases h with ⟨contents, hThrives, hBlocks⟩
  have hNone : contents = [] := List.map_eq_nil_iff.mp hBlocks
  have hFrames : ¬ 0 < s.1.outlet.frames := by
    rw [hThrives.stands.outlet.frames, hNone]
    exact Nat.lt_irrefl 0
  let outlet : Outlet ω :=
    { s.1.outlet with capture := some (.new receivers.index) }
  have hAttach :
      s.1.attach receivers.index =
        .ok { s.1 with outlet := outlet } := by
    unfold RawWriter.attach Outlet.attach
    rw [if_neg hFrames]
    rfl
  exact
    ⟨_, hAttach, ⟨contents, hThrives.attach hAttach, hBlocks⟩,
      rfl⟩

theorem fulfils
    (hSettled : receivers.Settled) :
    FrameWriter.Fulfils blockSize
      (Taking receivers codec blockSize captured)
      (Ended receivers codec blockSize captured) where
  held_lt := by
    rintro s blocks ⟨contents, hThrives, _⟩
    exact hThrives.held_lt
  write := by
    rintro ⟨writer, world⟩ blocks bytes
      ⟨contents, hThrives, rfl⟩
    rcases hThrives.write bytes with
      ⟨writer', next, added, hWrite, hNext, hBytes, hFull⟩
    exact
      ⟨(writer', next), added.map PackedBlock.block, hWrite,
        ⟨_, hNext, List.map_append⟩, hBytes, hFull⟩
  finish := by
    rintro ⟨writer, world⟩ blocks ⟨contents, hThrives, rfl⟩
    rcases hThrives.finish with
      ⟨result, writer', next, added, hFinish, hNext, hHeld,
        hBlocks, hSettles⟩
    rcases hSettles hSettled with ⟨n, rfl⟩
    refine
      ⟨n, (writer', next), hFinish, ⟨_, hNext, ?_⟩, hHeld⟩
    rw [List.map_append, hBlocks]
    rfl

/-
  What has been received of a raw stream and of its index when
  its writer is closed.
-/
structure Received
    (receivers : Receivers ω)
    (codec : Codec)
    (blockSize : Nat)
    (captured : Bool)
    (blocks : List Bytes)
    (contents : List PackedBlock)
    (world : ω) : Prop where
  made :
    ∀ content ∈ contents,
      content.Fits ∧
        codec.MakesWithin (blockSize + codec.overhead blockSize)
          content
  blocks_eq : contents.map PackedBlock.block = blocks
  holds :
    receivers.Holds world (RawStream.layout contents)
      (if captured then
        (RawStream.offsets 0 contents).flatMap
          FrameIndex.encodeOffset
      else
        [])

/-
  To close a writer that holds nothing does not fail, and lays
  out nothing more.
-/
theorem Ended.close
    {s : RawWriter ω × ω}
    {blocks : List Bytes}
    (h : Ended receivers codec blockSize captured s blocks)
    (hSettled : receivers.Settled) :
    ∃ contents next,
      close.perform s = (.ok (), next) ∧
      Received receivers codec blockSize captured blocks contents
        next.2 := by
  rcases s with ⟨writer, world⟩
  rcases h with ⟨⟨contents, hThrives, hBlocks⟩, hHeld⟩
  rcases hThrives.finish with
    ⟨result, finished, middle, added, hFinish, hFinished, _,
      hAdded, hOk⟩
  rcases hOk hSettled with ⟨n, rfl⟩
  have hNone : added = [] := by
    rw [Regrouper.remainder, if_pos hHeld] at hAdded
    exact List.map_eq_nil_iff.mp hAdded
  rw [hNone, List.append_nil] at hFinished
  rcases hFinished.stands.outlet.flushCapture with
    ⟨outlet, next, hCapture, hOutlet, hDrained⟩
  refine
    ⟨contents, ({ finished with outlet := outlet }, next), ?_, ?_⟩
  · unfold RawWriter.close
    rw [Step.perform_bind_of_ok hFinish]
    exact perform_onOutlet hCapture
  · exact
      { made := hFinished.stands.made
        blocks_eq := hBlocks
        holds := hOutlet.received hDrained }

end RawWriter

end SplitStream
