import SplitStream.Proofs.Writer.RawKeeping
import SplitStream.Proofs.Writer.Sessions

/-
  Whole sessions of writers of raw streams: a writer is made,
  any calls follow, an index is attached between them, and
  the session may stop behind any call.

  Main declarations:
    * `Call.KeptBy`
    * `Course.run_kept`
    * `RawWriter.Keeps.call`
    * `RawSession`
    * `RawSession.Outcome`
    * `RawSession.outcome_of_play`
-/

------------------------------------------------------------
-- Kept Data
------------------------------------------------------------

namespace SplitStream

/-
  A call leaves a writer with its data: the bytes that the
  call accepts are added, and those that a reset drops are
  taken away.
-/
def Call.KeptBy
    {ω : Type}
    {W : Type → Type}
    [FrameWriter W]
    (Keeps : W ω → ω → Bytes → Prop)
    (writer : W ω)
    (world : ω)
    (kept : Bytes)
    (call : Call) : Prop :=
  ∃ result writer' next,
    call.action.perform (writer, world) =
      (result, writer', next) ∧
    Keeps writer' next
      (call.leftOf writer kept ++
        call.accepted writer result writer')

/- What every call keeps, a course of calls keeps. -/
theorem Course.run_kept
    {ω : Type}
    {W : Type → Type}
    [FrameWriter W]
    {Keeps : W ω → ω → Bytes → Prop}
    (hCalls :
      ∀ writer world kept,
        Keeps writer world kept →
          ∀ call, Call.KeptBy Keeps writer world kept call)
    (course : Course W ω)
    (calls : List Call)
    (h : Keeps course.writer course.world course.kept) :
    Keeps (course.run calls).writer (course.run calls).world
      (course.run calls).kept := by
  let Holds (course : Course W ω) : Prop :=
    Keeps course.writer course.world course.kept
  have hStep :
      ∀ course,
        Holds course → ∀ call, Holds (course.step call) := by
    intro course hCourse call
    rcases hCalls _ _ _ hCourse call with
      ⟨result, writer, next, hCall, hKeeps⟩
    rw [Course.step_eq hCall]
    exact hKeeps
  exact Course.run_of_step hStep course calls h

------------------------------------------------------------
-- Single Calls
------------------------------------------------------------

namespace RawWriter

variable
  {ω : Type} {receivers : Receivers ω} {codec : Codec}
  {blockSize : Nat} {captured : Bool} {writer : RawWriter ω}
  {world : ω} {kept : Bytes}

/- A call that brings in nothing. -/
theorem keptBy_of_none
    {call : Call}
    {result : Except Error Unit}
    {writer' : RawWriter ω}
    {next : ω}
    (hCall :
      call.action.perform (writer, world) =
        (result, writer', next))
    (hNone : call.offered = [])
    (hKeeps :
      Keeps receivers codec blockSize captured writer' next
        (call.leftOf writer kept)) :
    Call.KeptBy (Keeps receivers codec blockSize captured) writer
      world kept call := by
  refine ⟨result, writer', next, hCall, ?_⟩
  rw [Call.accepted_of_none hNone, List.append_nil]
  exact hKeeps

theorem Keeps.call_write
    (h : Keeps receivers codec blockSize captured writer world kept)
    (data : Bytes) :
    Call.KeptBy (Keeps receivers codec blockSize captured) writer
      world kept (.write data) := by
  rcases h.write data with
    ⟨result, writer', next, taken, hWrite, hKeeps, hCount, hAll⟩
  refine ⟨result, writer', next, hWrite, ?_⟩
  have hAccepted :
      Call.accepted (.write data) writer result writer' =
        data.take taken :=
    Call.accepted_of_count (.write data) taken hCount hAll
  rw [hAccepted]
  exact hKeeps

theorem Keeps.call_writeRange
    (h : Keeps receivers codec blockSize captured writer world kept)
    (buffer : Bytes)
    (offset length : Nat) :
    Call.KeptBy (Keeps receivers codec blockSize captured) writer
      world kept (.writeRange buffer offset length) := by
  by_cases hRange : offset + length ≤ buffer.length
  · rcases h.write ((buffer.drop offset).take length) with
      ⟨result, writer', next, taken, hWrite, hKeeps, hCount,
        hAll⟩
    refine
      ⟨result, writer', next,
        (Call.perform_writeRange_of_le hRange _).trans hWrite,
        ?_⟩
    have hAccepted :
        Call.accepted (.writeRange buffer offset length) writer
            result writer' =
          ((buffer.drop offset).take length).take taken :=
      Call.accepted_of_count _ taken hCount hAll
    rw [hAccepted]
    exact hKeeps
  · refine
      ⟨.error (.misuse (.range buffer.length offset length)),
        writer, world,
        Call.perform_writeRange_of_lt (Nat.lt_of_not_le hRange) _,
        ?_⟩
    rw [Call.accepted_of_count
      (.writeRange buffer offset length) 0 rfl (by simp),
      List.take_zero, List.append_nil]
    exact h

/- Every call keeps the data. -/
theorem Keeps.call
    (h : Keeps receivers codec blockSize captured writer world kept)
    (call : Call) :
    Call.KeptBy (Keeps receivers codec blockSize captured) writer
      world kept call := by
  cases call with
  | write data => exact h.call_write data
  | writeRange buffer offset length =>
    exact h.call_writeRange buffer offset length
  | flush =>
    rcases h.flush with ⟨result, writer', next, hFlush, hKeeps⟩
    have hCall :
        Call.flush.action.perform (writer, world) =
          (result, writer', next) :=
      hFlush
    exact keptBy_of_none hCall rfl hKeeps
  | finish =>
    rcases h.finish with ⟨result, writer', next, hFinish, hKeeps⟩
    exact keptBy_of_none (Call.perform_finish hFinish) rfl hKeeps
  | reset =>
    rcases h.reset with ⟨writer', hReset, hKeeps⟩
    have hCall :
        Call.reset.action.perform (writer, world) =
          (.ok (), writer', world) :=
      hReset
    exact keptBy_of_none hCall rfl hKeeps

end RawWriter

------------------------------------------------------------
-- Whole Sessions
------------------------------------------------------------

/-
  A session of a writer of raw streams over two sinks. The
  index is attached between the calls. The session may stop
  behind any of them, or with a close that succeeds.
-/
structure RawSession where
  codec : Codec
  blockSize : Nat
  data : Conduct
  index : Conduct
  before : List Call
  after : List Call
  closed : Bool

namespace RawSession

/- Make the writer. -/
def start
    (session : RawSession) :
    Except Error (Course RawWriter SinkPair) :=
  match RawWriter.new SinkPair.dataChannel session.codec
      session.blockSize with
  | .error e => .error e
  | .ok writer =>
      .ok
        { writer := writer
          world := .empty session.data session.index
          kept := []
          log := [] }

/- Go through all calls, and close the writer if it is to be. -/
def play
    (session : RawSession) :
    Except Error (Course RawWriter SinkPair) := do
  let opened ← session.start
  let attached ←
    (opened.run session.before).attach SinkPair.indexChannel
  let last := attached.run session.after
  if session.closed then
    last.conclude .close
  else
    return last

/-
  A course of a session has come to frames in the sink. Their
  data and what is held over are what was kept; the index
  sink has the first of their positions, and the capture has
  the others.
-/
structure Outcome
    (session : RawSession)
    (course : Course RawWriter SinkPair)
    (contents : List PackedBlock) : Prop where
  received :
    course.world.data.contents = RawStream.layout contents
  kept :
    RawStream.data contents ++
        course.writer.regrouper.held.toBytes =
      course.kept
  frames : FrameWriter.frames course.writer = contents.length
  made :
    ∀ content ∈ contents,
      content.Fits ∧
        session.codec.MakesWithin
          (session.blockSize +
            session.codec.overhead session.blockSize)
          content
  indexed :
    ∃ capture,
      course.writer.outlet.capture = some capture ∧
      course.world.index.contents ++ capture.batch.toBytes =
        (RawStream.offsets 0 contents).flatMap
          FrameIndex.encodeOffset

variable
  {session : RawSession} {course : Course RawWriter SinkPair}

/- A session starts with nothing kept. -/
theorem start_spec
    (hData : session.data.Accepting)
    (hIndex : session.index.Reliable)
    (hStart : session.start = .ok course) :
    RawWriter.Keeps (SinkPair.receivers hData hIndex)
      session.codec session.blockSize false course.writer
      course.world course.kept := by
  unfold start at hStart
  split at hStart
  · cases hStart
  · rename_i writer hNew
    cases hStart
    exact
      RawWriter.keeps_new
        (SinkPair.hold_empty session.data session.index) hNew

/- A close leaves the data as it is. -/
theorem keeps_of_conclude
    {receivers : Receivers SinkPair}
    {codec : Codec}
    {blockSize : Nat}
    {captured : Bool}
    {final : Course RawWriter SinkPair}
    (h :
      RawWriter.Keeps receivers codec blockSize captured
        course.writer course.world course.kept)
    (hConclude : course.conclude .close = .ok final) :
    RawWriter.Keeps receivers codec blockSize captured
      final.writer final.world final.kept := by
  rcases h.close with ⟨result, writer, world, hClose, hKeeps⟩
  have hCall :
      Ending.close.action.perform (course.writer, course.world) =
        (result, writer, world) :=
    hClose
  rcases Course.parts_of_conclude hConclude with
    ⟨_, _, hLast, rfl⟩
  rw [hCall] at hLast
  cases hLast
  exact hKeeps

/- A session keeps its data, wherever it stops. -/
theorem play_spec
    (hData : session.data.Accepting)
    (hIndex : session.index.Reliable)
    (hPlay : session.play = .ok course) :
    RawWriter.Keeps (SinkPair.receivers hData hIndex)
      session.codec session.blockSize true course.writer
      course.world course.kept := by
  rcases ok_of_bind hPlay with ⟨opened, hStart, hRest⟩
  rcases ok_of_bind hRest with ⟨attached, hAttach, hEnd⟩
  rcases Course.writer_of_attach hAttach with
    ⟨writer, hWriter, rfl⟩
  have hBefore :=
    Course.run_kept (fun _ _ _ => RawWriter.Keeps.call) opened
      session.before (start_spec hData hIndex hStart)
  have hAfter :=
    Course.run_kept (fun _ _ _ => RawWriter.Keeps.call)
      { opened.run session.before with writer := writer }
      session.after (hBefore.attach hWriter)
  by_cases hClosed : session.closed = true
  · rw [if_pos hClosed] at hEnd
    exact keeps_of_conclude hAfter hEnd
  · rw [if_neg hClosed] at hEnd
    cases hEnd
    exact hAfter

/- A session comes to some frames, wherever it stops. -/
theorem outcome_of_play
    (hData : session.data.Accepting)
    (hIndex : session.index.Reliable)
    (hPlay : session.play = .ok course) :
    ∃ contents, session.Outcome course contents := by
  rcases play_spec hData hIndex hPlay with
    ⟨contents, hStands, hKept⟩
  rcases hStands.outlet.indexed with
    ⟨capture, indexed, hCapture, hHold, hLayout⟩
  rw [← hHold.index.contents] at hLayout
  refine ⟨contents, ?_⟩
  exact
    { received := hHold.data.contents
      kept := hKept
      frames := by
        rw [← RawStream.length_offsets 0 contents]
        exact hStands.outlet.frames
      made := hStands.made
      indexed := ⟨capture, hCapture, hLayout⟩ }

end RawSession

end SplitStream
