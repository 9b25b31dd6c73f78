import SplitStream.Proofs.Writer.Outlets
import SplitStream.Proofs.Writer.Trails

/-
  Container writers seen from the data they have taken. The
  data is in the frames that were laid out and in the bytes
  held over; every operation is described by what it does to
  this data.

  Main declarations:
    * `ContainerWriter.Stands`
    * `ContainerWriter.Keeps`
    * `ContainerWriter.Keeps.write`
    * `ContainerWriter.Keeps.flush`
    * `ContainerWriter.Keeps.finish`
    * `ContainerWriter.Keeps.reset`
    * `ContainerWriter.Keeps.close`
    * `ContainerWriter.keeps_new`
-/

------------------------------------------------------------
-- Standing Writers
------------------------------------------------------------

namespace SplitStream

/-
  A codec makes headers of its method, and frames of what it
  has packed.
-/
def Segment.MadeBy
    (codec : Codec) : Segment → Prop
  | header fields => fields.method = codec.method
  | frame _ content => codec.Makes content
  | terminator => True

/- The error is one of a channel. -/
def Error.isIo : Error → Bool
  | io _ => true
  | _ => false

/- A result is a failure of a channel. -/
def channelFailed
    {α : Type} : Except Error α → Bool
  | .error e => e.isIo
  | .ok _ => false

namespace ContainerWriter

open Segment

variable {ω : Type}

/-
  Segments have left the writer, which is in a stage of the
  trail they make up. Between members nothing is held over,
  and the index is written.
-/
structure Stands
    (receivers : Receivers ω)
    (codec : Codec)
    (fields : Header)
    (writer : ContainerWriter ω)
    (world : ω)
    (captured torn : Bool)
    (segments : List Segment) : Prop where
  outlet :
    writer.outlet.Stands receivers world captured segments
  codec_eq : writer.regrouper.codec = codec
  blockSize_le : writer.regrouper.blockSize ≤ maxBlockSize
  held_le :
    writer.regrouper.held.size ≤ writer.regrouper.blockSize
  header_eq : writer.header = fields
  regular : writer.header.Regular
  method : writer.header.method = codec.method
  flags : Selection.ofFlags writer.header.flags = writer.checksums
  trail :
    Trail writer.header writer.checksums torn writer.stage
      segments
  made : ∀ segment ∈ segments, segment.MadeBy codec
  idle :
    writer.stage ≠ .opened →
      writer.regrouper.held.size = 0 ∧ writer.outlet.Drained

/-
  Without an index, a writer stands before any receivers of
  its channel that have received the same.
-/
theorem Stands.transfer
    {first : Receivers ω}
    {codec : Codec}
    {fields : Header}
    {writer : ContainerWriter ω}
    {world : ω}
    {torn : Bool}
    {segments : List Segment}
    (h :
      writer.Stands first codec fields world false torn
        segments) :
    first.Holds world (layout segments) [] ∧
      ∀ (second : Receivers ω) next,
        first.data = second.data →
        second.Holds next (layout segments) [] →
          writer.Stands second codec fields next false torn
            segments := by
  have hOutlet := h.outlet
  have hNone : writer.outlet.capture = none :=
    Option.isSome_eq_false_iff.mp hOutlet.captured |>
      Option.isNone_iff_eq_none.mp
  rcases hOutlet.holds with ⟨indexed, hReceived, hEmpty, _⟩
  rw [hEmpty hNone] at hReceived
  refine ⟨hReceived, ?_⟩
  intro second next hData hHolds
  exact
    { h with
      outlet :=
        { channel := hOutlet.channel.trans hData
          written := hOutlet.written
          frames := hOutlet.frames
          captured := hOutlet.captured
          holds :=
            ⟨[], hHolds, fun _ => rfl, by simp [hNone]⟩ } }

/- The data of a writer: what it laid out, and what it holds. -/
def Keeps
    (receivers : Receivers ω)
    (codec : Codec)
    (fields : Header)
    (writer : ContainerWriter ω)
    (world : ω)
    (captured torn : Bool)
    (kept : Bytes) : Prop :=
  ∃ segments,
    writer.Stands receivers codec fields world captured torn segments ∧
    Segment.contents segments ++ writer.regrouper.held.toBytes =
      kept

------------------------------------------------------------
-- Parts Of Writers
------------------------------------------------------------

variable
  {α : Type} {writer : ContainerWriter ω} {world next : ω}

theorem perform_current
    (writer : ContainerWriter ω)
    (world : ω) :
    current.perform (writer, world) =
      (.ok writer, writer, world) :=
  rfl

theorem perform_onOutlet
    {action : Action (Outlet ω × ω) α}
    {result : Except Error α}
    {outlet : Outlet ω}
    (h :
      action.perform (writer.outlet, world) =
        (result, outlet, next)) :
    (onOutlet action).perform (writer, world) =
      (result, { writer with outlet := outlet }, next) := by
  simp [onOutlet, h]

theorem perform_onRegrouper
    {action : Action (Regrouper × Outlet ω × ω) α}
    {result : Except Error α}
    {regrouper : Regrouper}
    {outlet : Outlet ω}
    (h :
      action.perform (writer.regrouper, writer.outlet, world) =
        (result, regrouper, outlet, next)) :
    (onRegrouper action).perform (writer, world) =
      (result,
        { writer with
          outlet := outlet
          regrouper := regrouper },
        next) := by
  simp [onRegrouper, h]

------------------------------------------------------------
-- Headers And Frames
------------------------------------------------------------

variable
  {receivers : Receivers ω} {codec : Codec} {fields : Header}
  {captured torn : Bool} {segments : List Segment}
  {kept : Bytes}

/- A further segment is made like those before it. -/
theorem made_append
    {segment : Segment}
    (hMade : ∀ segment ∈ segments, segment.MadeBy codec)
    (hNew : segment.MadeBy codec) :
    ∀ later ∈ segments ++ [segment], later.MadeBy codec := by
  intro later hLater
  rcases List.mem_append.mp hLater with hOld | hLast
  · exact hMade later hOld
  · rw [List.mem_singleton.mp hLast]
    exact hNew

/- What the regrouper makes, the codec makes. -/
theorem Stands.makes
    (h :
      writer.Stands receivers codec fields world captured torn
        segments)
    (content : PackedBlock)
    (hMade : writer.regrouper.Makes content) :
    codec.Makes content := by
  rw [← h.codec_eq]
  exact hMade.makes

/- Bytes are held over only in an open member. -/
theorem Stands.stage_of_held
    (h :
      writer.Stands receivers codec fields world captured torn
        segments)
    (hHeld : writer.regrouper.held.size ≠ 0) :
    writer.stage = .opened := by
  apply Decidable.byContradiction
  intro hStage
  exact hHeld (h.idle hStage).1

/- A member that is open is not opened again. -/
theorem perform_openMember_of_opened
    (world : ω)
    (hStage : writer.stage = .opened) :
    ContainerWriter.openMember.perform (writer, world) =
      (.ok (), writer, world) := by
  unfold ContainerWriter.openMember
  rw [Step.perform_bind_of_ok (perform_current writer world),
    if_neg (by simp [hStage])]
  rfl

/- A member that is due is opened with its header. -/
theorem Stands.openMember_of_due
    (h :
      writer.Stands receivers codec fields world captured torn
        segments)
    (hStage : writer.stage = .headerDue) :
    ∃ outlet next,
      ContainerWriter.openMember.perform (writer, world) =
        (.ok (),
          { writer with outlet := outlet, stage := .opened },
          next) ∧
      Stands receivers codec fields
        { writer with outlet := outlet, stage := .opened } next
        captured torn (segments ++ [.header fields]) := by
  rcases h.outlet.putHeader h.regular with
    ⟨outlet, next, hPut, hOutlet⟩
  have hMade :
      ∀ segment ∈ segments ++ [.header writer.header],
        segment.MadeBy codec :=
    made_append h.made h.method
  refine ⟨outlet, next, ?_, ?_⟩
  · unfold ContainerWriter.openMember
    rw [Step.perform_bind_of_ok (perform_current writer world),
      if_pos hStage,
      Step.perform_bind_of_ok (perform_onOutlet hPut)]
    rfl
  · have hTrail := h.trail
    rw [hStage] at hTrail
    rw [← h.header_eq]
    exact
      { h with
        outlet := hOutlet
        header_eq := rfl
        trail := hTrail.member
        made := hMade
        idle := by simp }

/- A member is opened with its header, unless it is open. -/
theorem Stands.openMember
    (h :
      writer.Stands receivers codec fields world captured torn
        segments)
    (hStage : writer.stage ≠ .finished) :
    ∃ writer' next added,
      ContainerWriter.openMember.perform (writer, world) =
        (.ok (), writer', next) ∧
      writer'.Stands receivers codec fields next captured torn
        (segments ++ added) ∧
      blocks added = [] ∧
      writer'.stage = .opened ∧
      writer'.regrouper = writer.regrouper ∧
      writer'.checksums = writer.checksums := by
  cases hCase : writer.stage with
  | finished => contradiction
  | opened =>
    exact
      ⟨writer, world, [], perform_openMember_of_opened world hCase,
        by simpa using h, rfl, hCase, rfl, rfl⟩
  | headerDue =>
    rcases h.openMember_of_due hCase with
      ⟨outlet, next, hOpen, hOpened⟩
    exact
      ⟨_, next, [.header fields], hOpen, hOpened, rfl, rfl, rfl,
        rfl⟩

theorem Keeps.openMember
    (h : writer.Keeps receivers codec fields world captured torn kept)
    (hStage : writer.stage ≠ .finished) :
    ∃ writer' next,
      ContainerWriter.openMember.perform (writer, world) =
        (.ok (), writer', next) ∧
      writer'.Keeps receivers codec fields next captured torn kept ∧
      writer'.stage = .opened ∧
      writer'.regrouper = writer.regrouper ∧
      writer'.checksums = writer.checksums ∧
      writer'.outlet.frames = writer.outlet.frames := by
  rcases h with ⟨segments, hStands, hKept⟩
  rcases hStands.openMember hStage with
    ⟨writer', next, added, hOpen, hOpened, hNone, hStage',
      hRegrouper, hChecksums⟩
  refine
    ⟨writer', next, hOpen, ⟨segments ++ added, hOpened, ?_⟩,
      hStage', hRegrouper, hChecksums, ?_⟩
  · rw [contents_append, ← flatten_blocks added, hNone,
      List.flatten_nil, List.append_nil, hRegrouper]
    exact hKept
  · rw [hOpened.outlet.frames, hStands.outlet.frames,
      frames_append, ← length_blocks added, hNone]
    rfl

/- Blocks have left an outlet as frames behind segments. -/
def Emitted
    (receivers : Receivers ω)
    (codec : Codec)
    (captured : Bool)
    (segments : List Segment)
    (checksums : Selection)
    (contents : List PackedBlock)
    (state : Outlet ω × ω) : Prop :=
  (∀ content ∈ contents, content.Fits ∧ codec.Makes content) ∧
    state.1.Stands receivers state.2 captured
      (segments ++ contents.map (.frame checksums))

/- The frame of a block always leaves. -/
theorem emission_extends
    (writer : ContainerWriter ω)
    (receivers : Receivers ω)
    (codec : Codec)
    (captured : Bool)
    (segments : List Segment) :
    writer.emission.Extends codec.Makes
      (Emitted receivers codec captured segments
        writer.checksums)
      (fun _ => False) := by
  intro contents content state hEmitted hFits hMakes
  rcases state with ⟨outlet, world⟩
  rcases hEmitted with ⟨hContents, hOutlet⟩
  rcases hOutlet.emit writer.checksums content with
    ⟨outlet', next, hEmit, hNext⟩
  left
  unfold emission
  rw [hEmit]
  refine ⟨rfl, ?_, ?_⟩
  · intro later hLater
    rcases List.mem_append.mp hLater with hOld | hNew
    · exact hContents later hOld
    · rw [List.mem_singleton.mp hNew]
      exact ⟨hFits, hMakes⟩
  · simpa using hNext

/- No error of a regrouper is a failure of a channel. -/
theorem channelFailed_of_refuses
    {e : Error}
    (h : Regrouper.Refuses (fun _ => False) e) :
    channelFailed (.error e : Except Error Unit) = false := by
  cases h with
  | codec => rfl
  | overlong => rfl
  | emission hFalse => exact hFalse.elim

/- Frames of an open member have left, and others are held. -/
theorem Stands.regrouped
    (h :
      writer.Stands receivers codec fields world captured torn segments)
    (hStage : writer.stage = .opened)
    {regrouper : Regrouper}
    (hKin : writer.regrouper.Kin regrouper)
    (hHeld : regrouper.held.size ≤ regrouper.blockSize)
    {added : List PackedBlock}
    {outlet : Outlet ω}
    (hEmitted :
      Emitted receivers codec captured segments writer.checksums
        added (outlet, next)) :
    Stands receivers codec fields
      { writer with outlet := outlet, regrouper := regrouper }
      next captured torn
      (segments ++ added.map (.frame writer.checksums)) where
  outlet := hEmitted.2
  codec_eq := hKin.codec.trans h.codec_eq
  blockSize_le := by
    rw [hKin.blockSize]
    exact h.blockSize_le
  held_le := hHeld
  header_eq := h.header_eq
  regular := h.regular
  method := h.method
  flags := h.flags
  trail := by
    have hTrail := h.trail
    rw [hStage] at hTrail ⊢
    exact hTrail.frames fun content hContent =>
      (hEmitted.1 content hContent).1
  made := by
    intro segment hSegment
    rcases List.mem_append.mp hSegment with hOld | hNew
    · exact h.made segment hOld
    · rcases List.mem_map.mp hNew with ⟨content, hContent, rfl⟩
      exact (hEmitted.1 content hContent).2
  idle := fun hIdle => absurd hStage hIdle

------------------------------------------------------------
-- Writing
------------------------------------------------------------

/- Into an open member, bytes are regrouped. -/
theorem Keeps.regroup
    (h : writer.Keeps receivers codec fields world captured torn kept)
    (hStage : writer.stage = .opened)
    (bytes : Bytes) :
    ∃ result writer' next taken,
      (onRegrouper
          (Regrouper.write writer.emission bytes)).perform
          (writer, world) =
        (result, writer', next) ∧
      writer'.Keeps receivers codec fields next captured torn
        (kept ++ bytes.take taken) ∧
      writer'.regrouper.blockSize =
        writer.regrouper.blockSize ∧
      writer.outlet.frames * writer.regrouper.blockSize +
          writer.regrouper.pending + taken =
        writer'.outlet.frames * writer.regrouper.blockSize +
          writer'.regrouper.pending ∧
      (result = .ok () → taken = bytes.length) ∧
      channelFailed result = false := by
  rcases h with ⟨segments, hStands, hKept⟩
  have hStart :
      Emitted receivers codec captured segments writer.checksums
        [] (writer.outlet, world) :=
    ⟨by simp, by simpa using hStands.outlet⟩
  rcases Regrouper.writes_of_extends bytes
    (emission_extends writer receivers codec captured segments)
    hStands.makes hStands.blockSize_le hStands.held_le hStart
    with
    ⟨result, regrouper, ⟨outlet, next⟩, taken, added, hWrite,
      hIntake, hEmitted, hAll, hError⟩
  rw [List.nil_append] at hEmitted
  refine
    ⟨result,
      { writer with outlet := outlet, regrouper := regrouper },
      next, taken, perform_onRegrouper hWrite,
      ⟨_, hStands.regrouped hStage hIntake.kin hIntake.held_le
        hEmitted, ?_⟩,
      hIntake.kin.blockSize, ?_, hAll, ?_⟩
  · rw [contents_append, contents_map_frame, List.append_assoc,
      ← hIntake.bytes, ← List.append_assoc, hKept]
  · have hFrames : outlet.frames = _ := hEmitted.2.frames
    rw [hFrames, hStands.outlet.frames, frames_append,
      frames_map_frame, Nat.add_mul, Nat.add_assoc,
      hIntake.count, Nat.add_assoc]
  · cases result with
    | ok _ => rfl
    | error e => exact channelFailed_of_refuses (hError e rfl)

/-
  A write takes bytes, and its counters tell how many. It
  takes all of them if it succeeds.
-/
theorem Keeps.write
    (h : writer.Keeps receivers codec fields world captured torn kept)
    (bytes : Bytes) :
    ∃ result writer' next taken,
      (ContainerWriter.write bytes).perform (writer, world) =
        (result, writer', next) ∧
      writer'.Keeps receivers codec fields next captured torn
        (kept ++ bytes.take taken) ∧
      writer'.regrouper.blockSize =
        writer.regrouper.blockSize ∧
      writer.outlet.frames * writer.regrouper.blockSize +
          writer.regrouper.pending + taken =
        writer'.outlet.frames * writer.regrouper.blockSize +
          writer'.regrouper.pending ∧
      (result = .ok () → taken = bytes.length) ∧
      channelFailed result = false := by
  unfold ContainerWriter.write
  rw [Step.perform_bind_of_ok (perform_current writer world)]
  by_cases hFinished : writer.stage = .finished
  · refine
      ⟨.error (.misuse .writeAfterFinish), writer, world, 0, ?_,
        by simpa using h, rfl, rfl, by simp, rfl⟩
    rw [if_pos hFinished]
    rfl
  rw [if_neg hFinished]
  by_cases hEmpty : bytes = []
  · refine
      ⟨.ok (), writer, world, 0, ?_, by simpa using h, rfl, rfl,
        by simp [hEmpty], rfl⟩
    simp [hEmpty]
  rcases h.openMember hFinished with
    ⟨opened, middle, hOpen, hOpened, hStage, hRegrouper,
      hChecksums, hFrames⟩
  have hEmission : writer.emission = opened.emission := by
    rw [emission, emission, hChecksums]
  rcases hOpened.regroup hStage bytes with
    ⟨result, writer', next, taken, hRegroup, hKeeps, hSize,
      hCount, hAll, hChannel⟩
  rw [hRegrouper] at hSize hCount
  rw [hFrames] at hCount
  refine
    ⟨result, writer', next, taken, ?_, hKeeps, hSize, hCount,
      hAll, hChannel⟩
  rw [if_pos (by simpa using hEmpty)]
  apply (Step.perform_bind_of_ok hOpen).trans
  rw [hEmission, hRegroup]

------------------------------------------------------------
-- Flushing
------------------------------------------------------------

/- With nothing held over, no frame is written. -/
theorem perform_flushFrames_of_none
    (world : ω)
    (hNone : writer.regrouper.pending = 0) :
    flushFrames.perform (writer, world) =
      (.ok (), writer, world) := by
  unfold flushFrames
  rw [Step.perform_bind_of_ok (perform_current writer world),
    if_neg (not_not_intro hNone)]
  rfl

/- What is held over becomes a frame, or is still held. -/
theorem Keeps.flushFrames
    (h : writer.Keeps receivers codec fields world captured torn kept) :
    ∃ result writer' next,
      ContainerWriter.flushFrames.perform (writer, world) =
        (result, writer', next) ∧
      writer'.Keeps receivers codec fields next captured torn kept ∧
      writer'.stage = writer.stage ∧
      writer'.regrouper.blockSize =
        writer.regrouper.blockSize ∧
      (result = .ok () → writer'.regrouper.held.size = 0) ∧
      channelFailed result = false := by
  by_cases hNone : writer.regrouper.pending = 0
  · exact
      ⟨.ok (), writer, world,
        perform_flushFrames_of_none world hNone, h, rfl, rfl,
        fun _ => hNone, rfl⟩
  rcases h with ⟨segments, hStands, hKept⟩
  unfold ContainerWriter.flushFrames
  rw [Step.perform_bind_of_ok (perform_current writer world)]
  have hStage := hStands.stage_of_held hNone
  have hOpen := perform_openMember_of_opened world hStage
  have hStart :
      Emitted receivers codec captured segments writer.checksums
        [] (writer.outlet, world) :=
    ⟨by simp, by simpa using hStands.outlet⟩
  rcases Regrouper.flush_of_extends
    (emission_extends writer receivers codec captured segments)
    hStands.makes hStands.blockSize_le hStands.held_le hStart
    with
    ⟨result, regrouper, ⟨outlet, next⟩, added, hFlush, hKin,
      hLe, hEmitted, hBytes, hOk, hError⟩
  rw [List.nil_append] at hEmitted
  have hHeld : regrouper.held.size ≤ regrouper.blockSize := by
    rw [hKin.blockSize]
    exact Nat.le_trans hLe hStands.held_le
  refine
    ⟨result,
      { writer with outlet := outlet, regrouper := regrouper },
      next, ?_,
      ⟨_, hStands.regrouped hStage hKin hHeld hEmitted, ?_⟩,
      rfl, hKin.blockSize, hOk, ?_⟩
  · rw [if_pos hNone, Step.perform_bind_of_ok hOpen]
    exact perform_onRegrouper hFlush
  · rw [contents_append, contents_map_frame, List.append_assoc,
      ← hBytes, hKept]
  · cases result with
    | ok _ => rfl
    | error e => exact channelFailed_of_refuses (hError e rfl)

/- Another outlet with the same segments stands as well. -/
theorem Stands.withOutlet
    (h :
      writer.Stands receivers codec fields world captured torn segments)
    {outlet : Outlet ω}
    (hOutlet : outlet.Stands receivers next captured segments)
    (hDrained : outlet.Drained) :
    Stands receivers codec fields { writer with outlet := outlet } next
      captured torn segments :=
  { h with
    outlet := hOutlet
    idle := fun hStage => ⟨(h.idle hStage).1, hDrained⟩ }

/- The index and the channel are flushed. -/
theorem Stands.flushOutlet
    (h :
      writer.Stands receivers codec fields world captured torn
        segments) :
    ∃ result outlet next,
      (onOutlet Outlet.flush).perform (writer, world) =
        (result, { writer with outlet := outlet }, next) ∧
      Stands receivers codec fields
        { writer with outlet := outlet } next captured torn
        segments ∧
      outlet.Drained ∧
      (∀ e, result = .error e → ∃ kind, e = .io kind) ∧
      (receivers.Settled → result = .ok ()) := by
  rcases h.outlet.flush with
    ⟨result, outlet, next, hFlush, hOutlet, hDrained, hError,
      hSettled⟩
  exact
    ⟨result, outlet, next, perform_onOutlet hFlush,
      h.withOutlet hOutlet hDrained, hDrained, hError, hSettled⟩

theorem Keeps.flushOutlet
    (h : writer.Keeps receivers codec fields world captured torn kept) :
    ∃ result outlet next,
      (onOutlet Outlet.flush).perform (writer, world) =
        (result, { writer with outlet := outlet }, next) ∧
      Keeps receivers codec fields { writer with outlet := outlet } next
        captured torn kept ∧
      outlet.Drained ∧
      (∀ e, result = .error e → ∃ kind, e = .io kind) ∧
      (receivers.Settled → result = .ok ()) := by
  rcases h with ⟨segments, hStands, hKept⟩
  rcases hStands.flushOutlet with
    ⟨result, outlet, next, hFlush, hFlushed, hRest⟩
  exact
    ⟨result, outlet, next, hFlush, ⟨segments, hFlushed, hKept⟩,
      hRest⟩

/- A flush changes nothing of the data. -/
theorem Keeps.flush
    (h : writer.Keeps receivers codec fields world captured torn kept) :
    ∃ result writer' next,
      ContainerWriter.flush.perform (writer, world) =
        (result, writer', next) ∧
      writer'.Keeps receivers codec fields next captured torn kept ∧
      writer'.regrouper.blockSize =
        writer.regrouper.blockSize := by
  rcases h.flushFrames with
    ⟨result, flushed, middle, hFrames, hFlushed, _, hSize, _, _⟩
  unfold ContainerWriter.flush
  cases result with
  | error e =>
    exact
      ⟨_, flushed, middle, Step.perform_bind_of_error hFrames,
        hFlushed, hSize⟩
  | ok _ =>
    rcases hFlushed.flushOutlet with
      ⟨result, outlet, next, hOutlet, hKeeps, _, _, _⟩
    refine ⟨result, _, next, ?_, hKeeps, hSize⟩
    rw [Step.perform_bind_of_ok hFrames, hOutlet]

------------------------------------------------------------
-- Finishing
------------------------------------------------------------

/-
  A terminator is laid out and flushed. If the flush fails,
  the member stays open behind its terminator.
-/
theorem Stands.terminate
    (h :
      writer.Stands receivers codec fields world captured torn
        segments)
    (hStage : writer.stage = .opened)
    (hNone : writer.regrouper.held.size = 0) :
    ∃ result outlet next,
      (onOutlet (Outlet.put Frame.terminator) >>= fun _ =>
        onOutlet Outlet.flush).perform (writer, world) =
        (result, { writer with outlet := outlet }, next) ∧
      (result = .ok () →
        Stands receivers codec fields
          { writer with outlet := outlet, stage := .finished }
          next captured torn (segments ++ [.terminator])) ∧
      (∀ e, result = .error e →
        (∃ kind, e = .io kind) ∧
          Stands receivers codec fields
            { writer with outlet := outlet } next captured true
            (segments ++ [.terminator])) ∧
      (receivers.Settled → result = .ok ()) := by
  rcases h.outlet.putTerminator with
    ⟨ended, middle, hPut, hEnded⟩
  rcases hEnded.flush with
    ⟨result, outlet, next, hFlush, hOutlet, hDrained, hError,
      hSettled⟩
  have hTrail := h.trail
  rw [hStage] at hTrail
  have hMade :
      ∀ segment ∈ segments ++ [.terminator],
        segment.MadeBy codec :=
    made_append h.made trivial
  have hRun :
      (onOutlet (Outlet.put Frame.terminator) >>= fun _ =>
        onOutlet Outlet.flush).perform (writer, world) =
        (result, { writer with outlet := outlet }, next) := by
    rw [Step.perform_bind_of_ok (perform_onOutlet hPut)]
    exact perform_onOutlet hFlush
  refine ⟨result, outlet, next, hRun, ?_, ?_, hSettled⟩
  · intro _
    exact
      { h with
        outlet := hOutlet
        trail := hTrail.finish
        made := hMade
        idle := fun _ => ⟨hNone, hDrained⟩ }
  · intro e hFailed
    refine ⟨hError e hFailed, ?_⟩
    exact
      { h with
        outlet := hOutlet
        trail := hStage ▸ hTrail.stray
        made := hMade
        idle := fun hIdle => absurd hStage hIdle }

theorem Keeps.terminate
    (h : writer.Keeps receivers codec fields world captured torn kept)
    (hStage : writer.stage = .opened)
    (hNone : writer.regrouper.held.size = 0) :
    ∃ result outlet next,
      (onOutlet (Outlet.put Frame.terminator) >>= fun _ =>
        onOutlet Outlet.flush).perform (writer, world) =
        (result, { writer with outlet := outlet }, next) ∧
      (result = .ok () →
        Keeps receivers codec fields
          { writer with outlet := outlet, stage := .finished }
          next captured torn kept) ∧
      (∀ e, result = .error e →
        (∃ kind, e = .io kind) ∧
          Keeps receivers codec fields
            { writer with outlet := outlet } next captured true
            kept) ∧
      (receivers.Settled → result = .ok ()) := by
  rcases h with ⟨segments, hStands, hKept⟩
  rcases hStands.terminate hStage hNone with
    ⟨result, outlet, next, hRun, hOk, hError, hSettled⟩
  have hContents :
      Segment.contents (segments ++ [.terminator]) ++
          writer.regrouper.held.toBytes =
        kept := by
    simpa [data] using hKept
  refine ⟨result, outlet, next, hRun, ?_, ?_, hSettled⟩
  · exact fun hSuccess => ⟨_, hOk hSuccess, hContents⟩
  · intro e hFailed
    rcases hError e hFailed with ⟨hIo, hTorn⟩
    exact ⟨hIo, _, hTorn, hContents⟩

/-
  A finish that succeeds ends the member. One that fails by
  the channel has laid out the terminator nevertheless.
-/
theorem Keeps.finish
    (h : writer.Keeps receivers codec fields world captured torn kept) :
    ∃ result writer' next,
      ContainerWriter.finish.perform (writer, world) =
        (result, writer', next) ∧
      writer'.Keeps receivers codec fields next captured
        (torn || channelFailed result) kept ∧
      writer'.regrouper.blockSize =
        writer.regrouper.blockSize ∧
      (∀ n, result = .ok n → writer'.stage = .finished) ∧
      (receivers.Settled → channelFailed result = false) := by
  unfold ContainerWriter.finish
  rw [Step.perform_bind_of_ok (perform_current writer world)]
  by_cases hFinished : writer.stage = .finished
  · refine
      ⟨.ok writer.outlet.frames, writer, world, ?_,
        by simpa [channelFailed] using h, rfl,
        fun _ _ => hFinished, fun _ => rfl⟩
    rw [if_pos hFinished]
    rfl
  rw [if_neg hFinished]
  rcases h.openMember hFinished with
    ⟨opened, w₁, hOpen, hOpened, hStage, hRegrouper, _, _⟩
  rcases hOpened.flushFrames with
    ⟨flush, flushed, w₂, hFlush, hFlushed, hSame, hSize, hNone,
      hChannel⟩
  rw [hRegrouper] at hSize
  rw [Step.perform_bind_of_ok hOpen]
  cases flush with
  | error e =>
    refine
      ⟨.error e, flushed, w₂, Step.perform_bind_of_error hFlush,
        ?_, hSize, by simp, ?_⟩
    · have hIo : channelFailed (.error e : Except Error Nat) =
          false :=
        hChannel
      simpa [hIo] using hFlushed
    · exact fun _ => hChannel
  | ok _ =>
    rcases hFlushed.terminate (hSame.trans hStage) (hNone rfl)
      with
      ⟨result, outlet, w₃, hRun, hOk, hError, hSettled⟩
    rw [Step.perform_bind_of_ok hFlush, ← bind_assoc]
    cases result with
    | error e =>
      rcases hError e rfl with ⟨⟨kind, rfl⟩, hTorn⟩
      refine
        ⟨.error (.io kind), { flushed with outlet := outlet },
          w₃, Step.perform_bind_of_error hRun, ?_, hSize,
          by simp, ?_⟩
      · simpa [channelFailed, Error.isIo] using hTorn
      · intro hSettles
        have := hSettled hSettles
        contradiction
    | ok _ =>
      refine
        ⟨.ok outlet.frames,
          { flushed with outlet := outlet, stage := .finished },
          w₃, ?_, ?_, hSize, fun _ _ => rfl, fun _ => rfl⟩
      · rw [Step.perform_bind_of_ok hRun]
        rfl
      · simpa [channelFailed] using hOk rfl

/- Only a finished member is followed by another one. -/
theorem stage_of_reset
    {writer' : ContainerWriter ω}
    {result : Except Error Unit}
    (hReset :
      ContainerWriter.reset.perform (writer, world) =
        (result, writer', next)) :
    writer'.stage =
      if writer.stage = .finished then
        .headerDue
      else
        writer.stage := by
  cases hReset
  rfl

/- A reset drops what is held over. -/
theorem Stands.reset
    (h :
      writer.Stands receivers codec fields world captured torn
        segments) :
    ∃ writer',
      ContainerWriter.reset.perform (writer, world) =
        (.ok (), writer', world) ∧
      writer'.Stands receivers codec fields world captured torn
        segments ∧
      writer'.regrouper = writer.regrouper.reset := by
  refine
    ⟨{ writer with
        regrouper := writer.regrouper.reset
        stage :=
          if writer.stage = .finished then
            .headerDue
          else
            writer.stage },
      rfl, ?_, rfl⟩
  exact
    { h with
      held_le := Nat.zero_le _
      trail := by
        have hTrail := h.trail
        split
        · rename_i hFinished
          rw [hFinished] at hTrail
          exact hTrail.reset
        · exact hTrail
      idle := by
        intro hStage
        refine ⟨rfl, (h.idle ?_).2⟩
        intro hOpened
        simp [hOpened] at hStage }

theorem Keeps.reset
    (h : writer.Keeps receivers codec fields world captured torn kept) :
    ∃ writer',
      ContainerWriter.reset.perform (writer, world) =
        (.ok (), writer', world) ∧
      writer'.Keeps receivers codec fields world captured torn
        (kept.take (kept.length - writer.regrouper.pending)) ∧
      writer'.regrouper.blockSize =
        writer.regrouper.blockSize := by
  rcases h with ⟨segments, hStands, hKept⟩
  rcases hStands.reset with ⟨writer', hReset, hStands', hSame⟩
  have hTake :
      kept.take (kept.length - writer.regrouper.pending) =
        Segment.contents segments := by
    rw [← hKept, Regrouper.pending, Tape.size_eq_length,
      List.length_append, Nat.add_sub_cancel, List.take_left]
  refine
    ⟨writer', hReset, ⟨segments, hStands', ?_⟩, by rw [hSame]; rfl⟩
  rw [hTake, hSame]
  exact List.append_nil _

/- An index is attached before the first frame. -/
theorem Stands.attach
    (h :
      writer.Stands receivers codec fields world captured torn
        segments)
    {attached : ContainerWriter ω}
    (hAttach : writer.attach receivers.index = .ok attached) :
    attached.Stands receivers codec fields world true torn
        segments ∧
      attached.regrouper = writer.regrouper := by
  rcases outlet_of_attach hAttach with ⟨outlet, hOutlet, rfl⟩
  rcases h.outlet.attach hOutlet with ⟨hAttached, hDrained, _⟩
  refine ⟨?_, rfl⟩
  exact
    { h with
      outlet := hAttached
      idle := fun hStage => ⟨(h.idle hStage).1, hDrained⟩ }

theorem Keeps.attach
    (h : writer.Keeps receivers codec fields world captured torn kept)
    {attached : ContainerWriter ω}
    (hAttach : writer.attach receivers.index = .ok attached) :
    attached.Keeps receivers codec fields world true torn kept ∧
      attached.regrouper = writer.regrouper := by
  rcases h with ⟨segments, hStands, hKept⟩
  rcases hStands.attach hAttach with ⟨hAttached, hSame⟩
  exact ⟨⟨segments, hAttached, hSame ▸ hKept⟩, hSame⟩

------------------------------------------------------------
-- First And Last Steps
------------------------------------------------------------

/- The header of a writer tells which checksums it records. -/
theorem headerOf_spec
    (codec : Codec)
    (options : WriterOptions)
    (clock : UInt32) :
    (headerOf codec options clock).Regular ∧
      (headerOf codec options clock).method = codec.method ∧
      Selection.ofFlags (headerOf codec options clock).flags =
        options.checksums :=
  ⟨Header.regular_new _ _ _ _, rfl,
    (Header.writtenFlags_spec options.checksums).1⟩

/- A writer that is made has put its first header. -/
theorem perform_new_of_regrouper
    {options : WriterOptions}
    {regrouper : Regrouper}
    (hRegrouper :
      Regrouper.new codec options.blockSize = .ok regrouper)
    (channel : Channel ω)
    (clock : UInt32)
    (world : ω) :
    (new channel codec options clock).perform world =
      let header := headerOf codec options clock
      let (result, outlet, next) :=
        (Outlet.putHeader header).perform (.new channel, world)
      (result.map fun _ =>
          { outlet := outlet
            regrouper := regrouper
            header := header
            checksums := options.checksums
            stage := .opened },
        next) := by
  simp [new, hRegrouper, Step.perform_bind]

/- Without a size that blocks can have, nothing is made. -/
theorem perform_new_of_refused
    {options : WriterOptions}
    {e : Error}
    (hRefused :
      Regrouper.new codec options.blockSize = .error e)
    (channel : Channel ω)
    (clock : UInt32)
    (world : ω) :
    (new channel codec options clock).perform world =
      (.error e, world) := by
  simp [new, hRefused, Step.perform_bind]

theorem parts_of_new
    {channel : Channel ω}
    {options : WriterOptions}
    {clock : UInt32}
    (hNew :
      (new channel codec options clock).perform world =
        (.ok writer, next)) :
    let header := headerOf codec options clock
    ∃ length outlet,
      Regrouper.new codec options.blockSize =
        .ok writer.regrouper ∧
      (Outlet.putHeader header).perform (.new channel, world) =
        (.ok length, outlet, next) ∧
      writer =
        { outlet := outlet
          regrouper := writer.regrouper
          header := header
          checksums := options.checksums
          stage := .opened } := by
  intro header
  cases hRegrouper : Regrouper.new codec options.blockSize with
  | error e =>
    rw [perform_new_of_refused hRegrouper] at hNew
    cases hNew
  | ok regrouper =>
    rw [perform_new_of_regrouper hRegrouper] at hNew
    dsimp only at hNew
    rcases hPut :
        (Outlet.putHeader header).perform
          (.new channel, world) with ⟨_ | length, outlet, next'⟩
    · rw [hPut] at hNew
      cases hNew
    · rw [hPut] at hNew
      cases hNew
      exact ⟨length, outlet, rfl, rfl, rfl⟩

/-
  A writer with a size that blocks can have is made, and lays
  out its first header.
-/
theorem stands_new
    {options : WriterOptions}
    (clock : UInt32)
    (hHolds : receivers.Holds world [] [])
    (hSize :
      0 < options.blockSize ∧
        options.blockSize ≤ maxBlockSize) :
    ∃ writer next,
      (new receivers.data codec options clock).perform world =
        (.ok writer, next) ∧
      writer.Stands receivers codec
        (headerOf codec options clock) next false false
        [.header (headerOf codec options clock)] ∧
      writer.stage = .opened ∧
      writer.regrouper.held = .empty ∧
      writer.regrouper.blockSize = options.blockSize := by
  rcases headerOf_spec codec options clock with
    ⟨hRegular, hMethod, hFlags⟩
  rcases (Outlet.Stands.new hHolds).putHeader hRegular with
    ⟨outlet, next, hPut, hOutlet⟩
  let regrouper : Regrouper :=
    { codec := codec
      blockSize := options.blockSize
      blockSize_pos := hSize.1
      held := .empty
      output := .blank
      attempts := 0 }
  refine
    ⟨{ outlet := outlet
       regrouper := regrouper
       header := headerOf codec options clock
       checksums := options.checksums
       stage := .opened },
      next, ?_, ?_, rfl, rfl, rfl⟩
  · have hRegrouper :
        Regrouper.new codec options.blockSize = .ok regrouper := by
      simp [Regrouper.new, hSize, regrouper]
    rw [perform_new_of_regrouper hRegrouper]
    simp only [hPut]
    rfl
  · exact
      { outlet := hOutlet
        codec_eq := rfl
        header_eq := rfl
        blockSize_le := hSize.2
        held_le := Nat.zero_le _
        regular := hRegular
        method := hMethod
        flags := hFlags
        trail := .first
        made := by
          intro segment hSegment
          rw [List.mem_singleton.mp hSegment]
          exact hMethod
        idle := by simp }

/- A new writer has laid out its first header. -/
theorem keeps_new
    {options : WriterOptions}
    {clock : UInt32}
    (hHolds : receivers.Holds world [] [])
    (hNew :
      (new receivers.data codec options clock).perform world =
        (.ok writer, next)) :
    writer.Keeps receivers codec
        (headerOf codec options clock) next false false [] := by
  have hSize :
      0 < options.blockSize ∧
        options.blockSize ≤ maxBlockSize := by
    apply Decidable.byContradiction
    intro hSize
    simp [new, Regrouper.new, hSize, Step.perform_bind] at hNew
  rcases stands_new clock hHolds hSize with
    ⟨_, _, hPerform, hStands, _, hHeld, _⟩
  cases hPerform.symm.trans hNew
  refine ⟨_, hStands, ?_⟩
  rw [hHeld]
  rfl

/- The last flushes change nothing of the data. -/
theorem Keeps.flushParts
    (h : writer.Keeps receivers codec fields world captured torn kept) :
    ∃ result outlet next,
      (onOutlet (Outlet.onCapture Capture.flush) >>= fun _ =>
        onOutlet Outlet.flushChannel).perform (writer, world) =
        (result, { writer with outlet := outlet }, next) ∧
      Keeps receivers codec fields { writer with outlet := outlet } next
        captured torn kept := by
  rcases h with ⟨segments, hStands, hKept⟩
  rcases hStands.outlet.flushCapture with
    ⟨outlet, middle, hCapture, hOutlet, hDrained⟩
  rcases hOutlet.flushChannel with
    ⟨result, next, hChannel, hFlushed, _, _⟩
  refine
    ⟨result, outlet, next, ?_,
      ⟨segments, hStands.withOutlet hFlushed hDrained, hKept⟩⟩
  rw [Step.perform_bind_of_ok (perform_onOutlet hCapture)]
  exact perform_onOutlet hChannel

/- A writer that was closed stands between members. -/
theorem Keeps.close
    {closed : ContainerWriter ω}
    (h : writer.Keeps receivers codec fields world captured torn kept)
    (hClose :
      ContainerWriter.close.perform (writer, world) =
        (.ok (), closed, next)) :
    closed.Keeps receivers codec fields next captured torn kept ∧
      closed.stage ≠ .opened := by
  unfold ContainerWriter.close at hClose
  rw [Step.perform_bind_of_ok (perform_current writer world)]
    at hClose
  by_cases hOpened : writer.stage = .opened
  · rw [if_pos hOpened] at hClose
    rcases h.finish with
      ⟨result, finished, middle, hFinish, hKeeps, _, hStage, _⟩
    cases result with
    | error e =>
      rw [Step.perform_bind_of_error hFinish] at hClose
      cases hClose
    | ok n =>
      rw [channelFailed, Bool.or_false] at hKeeps
      rcases hKeeps.flushParts with
        ⟨result, outlet, last, hFlush, hLast⟩
      rw [Step.perform_bind_of_ok hFinish, hFlush] at hClose
      cases hClose
      refine ⟨hLast, ?_⟩
      rw [hStage n rfl]
      simp
  · rw [if_neg hOpened] at hClose
    rcases h.flushParts with ⟨result, outlet, last, hFlush, hLast⟩
    rw [hFlush] at hClose
    cases hClose
    exact ⟨hLast, hOpened⟩

end ContainerWriter

end SplitStream
