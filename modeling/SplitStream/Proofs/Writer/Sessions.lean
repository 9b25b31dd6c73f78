import SplitStream.Proofs.Writer.Keeping
import SplitStream.Proofs.Writer.SinkPair

/-
  Whole sessions of container writers: a writer is made, any
  calls follow, an index may be attached between them, and a
  last call ends the session. Calls that fail stay in it.

  Main declarations:
    * `Call`
    * `Course`
    * `Course.step`
    * `WriterSession`
    * `WriterSession.play`
    * `Course.Upholds`
    * `WriterSession.parts_of_play`
    * `WriterSession.play_spec`
-/

------------------------------------------------------------
-- Calls
------------------------------------------------------------

namespace SplitStream

/- The calls that a writer takes any number of times. -/
inductive Call where
  | write (data : Bytes)
  | writeRange (buffer : Bytes) (offset length : Nat)
  | flush
  | finish
  | reset
  deriving DecidableEq

namespace Call

variable {ω : Type} {W : Type → Type} [FrameWriter W]

/- What a call does. -/
def action : Call → Action (W ω × ω) Unit
  | write data => FrameWriter.write data
  | writeRange buffer offset length =>
      FrameWriter.writeRange buffer offset length
  | flush => FrameWriter.flush
  | finish => do
      let _ ← FrameWriter.finish
  | reset => FrameWriter.reset

/- The bytes that a call offers to the writer. -/
def offered : Call → Bytes
  | write data => data
  | writeRange buffer offset length =>
      (buffer.drop offset).take length
  | _ => []

/-
  The bytes that a call has brought in: all that it offered
  if it succeeded, and otherwise as many as the numbers of
  frames and of pending bytes tell.
-/
def accepted
    (call : Call)
    (before : W ω)
    (result : Except Error Unit)
    (after : W ω) : Bytes :=
  match result with
  | .ok () => call.offered
  | .error _ =>
      let size := (FrameWriter.regrouper before).blockSize
      call.offered.take
        (FrameWriter.frames after * size +
            FrameWriter.pending after -
          (FrameWriter.frames before * size +
            FrameWriter.pending before))

/- What is left of the bytes brought in before a call. -/
def leftOf
    (call : Call)
    (before : W ω)
    (kept : Bytes) : Bytes :=
  match call with
  | reset =>
      kept.take (kept.length - FrameWriter.pending before)
  | _ => kept

end Call

------------------------------------------------------------
-- Courses
------------------------------------------------------------

/-
  How far a session has come: the writer and its world, the
  bytes that were brought in and not dropped, and the results
  of the calls.
-/
structure Course
    (W : Type → Type)
    (ω : Type) where
  writer : W ω
  world : ω
  kept : Bytes
  log : List (Call × Except Error Unit)

namespace Course

variable {ω : Type} {W : Type → Type} [FrameWriter W]

/- No call has been made yet. -/
def opened
    (writer : W ω)
    (world : ω) : Course W ω where
  writer := writer
  world := world
  kept := []
  log := []

/- Make one call. -/
def step
    (course : Course W ω)
    (call : Call) : Course W ω :=
  let (result, writer, world) :=
    call.action.perform (course.writer, course.world)
  { writer := writer
    world := world
    kept :=
      call.leftOf course.writer course.kept ++
        call.accepted course.writer result writer
    log := course.log ++ [(call, result)] }

/- Make one call after another. -/
def run
    (course : Course W ω)
    (calls : List Call) : Course W ω :=
  calls.foldl step course

/- Attach an index. -/
def attach
    (course : Course W ω)
    (channel : Channel ω) : Except Error (Course W ω) := do
  let writer ← FrameWriter.attach course.writer channel
  return { course with writer := writer }

/- A course is attached to if its writer is. -/
theorem writer_of_attach
    {course attached : Course W ω}
    {channel : Channel ω}
    (hAttach : course.attach channel = .ok attached) :
    ∃ writer,
      FrameWriter.attach course.writer channel = .ok writer ∧
      attached = { course with writer := writer } := by
  rcases ok_of_bind hAttach with ⟨writer, hWriter, hCourse⟩
  exact ⟨writer, hWriter, (Except.ok.inj hCourse).symm⟩

theorem run_append
    (course : Course W ω)
    (front back : List Call) :
    course.run (front ++ back) = (course.run front).run back :=
  List.foldl_append

theorem step_eq
    {course : Course W ω}
    {call : Call}
    {result : Except Error Unit}
    {writer : W ω}
    {next : ω}
    (hCall :
      call.action.perform (course.writer, course.world) =
        (result, writer, next)) :
    course.step call =
      { writer := writer
        world := next
        kept :=
          call.leftOf course.writer course.kept ++
            call.accepted course.writer result writer
        log := course.log ++ [(call, result)] } := by
  unfold step
  rw [hCall]

/- What holds after each call holds after all of them. -/
theorem run_of_step
    {Holds : Course W ω → Prop}
    (hStep :
      ∀ course,
        Holds course → ∀ call, Holds (course.step call))
    (course : Course W ω)
    (calls : List Call)
    (h : Holds course) :
    Holds (course.run calls) := by
  induction calls generalizing course with
  | nil => exact h
  | cons call calls ih =>
    exact ih (course.step call) (hStep course h call)

/- What is in the log of a course stays in it. -/
theorem log_prefix_run
    (course : Course W ω)
    (calls : List Call) :
    course.log <+: (course.run calls).log := by
  let Holds (later : Course W ω) : Prop :=
    course.log <+: later.log
  have hStep :
      ∀ later,
        Holds later → ∀ call, Holds (later.step call) := by
    intro later hLater call
    exact hLater.trans ⟨_, rfl⟩
  exact run_of_step hStep course calls List.prefix_rfl

end Course

/- The calls that a session may end with. -/
inductive Ending where
  | finish
  | close
  deriving DecidableEq

/- What a last call does. -/
def Ending.action
    {ω : Type}
    {W : Type → Type}
    [FrameWriter W] : Ending → Action (W ω × ω) Unit
  | finish => Call.finish.action
  | close => FrameWriter.close

/- Make the last call, which must succeed. -/
def Course.conclude
    {ω : Type}
    {W : Type → Type}
    [FrameWriter W]
    (course : Course W ω)
    (ending : Ending) : Except Error (Course W ω) :=
  match ending.action.perform (course.writer, course.world) with
  | (.error e, _) => .error e
  | (.ok (), writer, world) =>
      .ok { course with writer := writer, world := world }

/- A course that has ended has made its last call. -/
theorem Course.parts_of_conclude
    {ω : Type}
    {W : Type → Type}
    [FrameWriter W]
    {course last : Course W ω}
    {ending : Ending}
    (hConclude : course.conclude ending = .ok last) :
    ∃ writer world,
      ending.action.perform (course.writer, course.world) =
        (.ok (), writer, world) ∧
      last = { course with writer := writer, world := world } := by
  unfold conclude at hConclude
  split at hConclude
  · cases hConclude
  · rename_i writer world hLast
    cases hConclude
    exact ⟨writer, world, hLast, rfl⟩

------------------------------------------------------------
-- Sessions
------------------------------------------------------------

/-
  A session of a container writer over two sinks. An index
  may be attached between the calls.
-/
structure WriterSession where
  codec : Codec
  options : WriterOptions
  clock : UInt32
  data : Conduct
  index : Conduct
  before : List Call
  indexed : Bool
  after : List Call
  ending : Ending

namespace WriterSession

/- Make the writer. -/
def start
    (session : WriterSession) :
    Except Error (Course ContainerWriter SinkPair) :=
  match (ContainerWriter.new SinkPair.dataChannel session.codec
      session.options session.clock).perform
      (.empty session.data session.index) with
  | (.error e, _) => .error e
  | (.ok writer, world) =>
      .ok
        { writer := writer
          world := world
          kept := []
          log := [] }

/- Attach the index if there is to be one. -/
def attach
    (session : WriterSession)
    (course : Course ContainerWriter SinkPair) :
    Except Error (Course ContainerWriter SinkPair) :=
  if session.indexed then
    course.attach SinkPair.indexChannel
  else
    .ok course

/- Go through all calls and end with a success. -/
def play
    (session : WriterSession) :
    Except Error (Course ContainerWriter SinkPair) := do
  let opened ← session.start
  let attached ← session.attach (opened.run session.before)
  (attached.run session.after).conclude session.ending

end WriterSession

------------------------------------------------------------
-- Single Calls
------------------------------------------------------------

namespace Call

/- A finish has failed by a channel. -/
def strays
    (call : Call)
    (result : Except Error Unit) : Bool :=
  call = .finish && channelFailed result

theorem strays_of_ne
    {call : Call}
    (h : call ≠ .finish)
    (result : Except Error Unit) :
    call.strays result = false := by
  simp [strays, h]

theorem strays_finish
    (result : Except Error Unit) :
    finish.strays result = channelFailed result := by
  simp [strays]

variable
  {ω : Type} {W : Type → Type} [FrameWriter W]
  {before after : W ω} {result : Except Error Unit}

/- A finish gives its number of frames away. -/
theorem perform_finish
    {s t : W ω × ω}
    {frames : Except Error Nat}
    (hFinish : FrameWriter.finish.perform s = (frames, t)) :
    finish.action.perform s = (frames.map fun _ => (), t) := by
  unfold action
  rw [Step.perform_bind, hFinish]
  cases frames with
  | error e => rfl
  | ok n => rfl

/- The counters tell how much was taken. -/
theorem accepted_of_count
    (call : Call)
    (taken : Nat)
    (hCount :
      FrameWriter.frames before *
            (FrameWriter.regrouper before).blockSize +
          FrameWriter.pending before + taken =
        FrameWriter.frames after *
            (FrameWriter.regrouper before).blockSize +
          FrameWriter.pending after)
    (hAll : result = .ok () → taken = call.offered.length) :
    call.accepted before result after =
      call.offered.take taken := by
  cases result with
  | ok _ =>
    rw [hAll rfl, List.take_length]
    rfl
  | error e =>
    unfold accepted
    dsimp only
    rw [← hCount, Nat.add_sub_cancel_left]

/- A range inside the buffer is written like other bytes. -/
theorem perform_writeRange_of_le
    {buffer : Bytes}
    {offset length : Nat}
    (hRange : offset + length ≤ buffer.length)
    (s : W ω × ω) :
    (writeRange buffer offset length).action.perform s =
      (FrameWriter.write
        ((buffer.drop offset).take length)).perform s := by
  unfold action FrameWriter.writeRange
  rw [Step.perform_bind_of_ok (a := ()) (t := s)]
  simp [checkRange, hRange]

/- Any other range is refused. -/
theorem perform_writeRange_of_lt
    {buffer : Bytes}
    {offset length : Nat}
    (hRange : buffer.length < offset + length)
    (s : W ω × ω) :
    (writeRange buffer offset length).action.perform s =
      (.error (.misuse (.range buffer.length offset length)),
        s) := by
  unfold action FrameWriter.writeRange
  apply Step.perform_bind_of_error
  simp [checkRange, Nat.not_le.mpr hRange]

theorem accepted_of_none
    {call : Call}
    (hNone : call.offered = []) :
    call.accepted before result after = [] := by
  cases result with
  | ok _ => exact hNone
  | error e => simp [accepted, hNone]

end Call

/- Some finish has failed by a channel. -/
def Course.torn
    {ω : Type}
    {W : Type → Type}
    (course : Course W ω) : Bool :=
  course.log.any fun entry => entry.1.strays entry.2

namespace ContainerWriter

variable
  {ω : Type} {receivers : Receivers ω} {codec : Codec}
  {fields : Header} {writer : ContainerWriter ω} {world : ω}
  {captured torn : Bool} {kept : Bytes}

/-
  What a call does to the data: the bytes that it accepts are
  added, and those that a reset drops are taken away.
-/
def KeepsAfter
    (receivers : Receivers ω)
    (codec : Codec)
    (fields : Header)
    (writer : ContainerWriter ω)
    (world : ω)
    (captured torn : Bool)
    (kept : Bytes)
    (call : Call) : Prop :=
  ∃ result writer' next,
    call.action.perform (writer, world) =
      (result, writer', next) ∧
    Keeps receivers codec fields writer' next captured
      (torn || call.strays result)
      (call.leftOf writer kept ++
        call.accepted writer result writer') ∧
    (receivers.Settled → call.strays result = false)

/- A call that brings in nothing and cannot stray. -/
theorem keepsAfter_of_none
    {call : Call}
    {result : Except Error Unit}
    {writer' : ContainerWriter ω}
    {next : ω}
    (hCall :
      call.action.perform (writer, world) =
        (result, writer', next))
    (hNone : call.offered = [])
    (hKeeps :
      Keeps receivers codec fields writer' next captured
        (torn || call.strays result) (call.leftOf writer kept))
    (hStrays : receivers.Settled → call.strays result = false) :
    writer.KeepsAfter receivers codec fields world captured torn kept
      call := by
  refine ⟨result, writer', next, hCall, ?_, hStrays⟩
  rw [Call.accepted_of_none hNone, List.append_nil]
  exact hKeeps

theorem Keeps.call_write
    (h : writer.Keeps receivers codec fields world captured torn kept)
    (data : Bytes) :
    writer.KeepsAfter receivers codec fields world captured torn kept
      (.write data) := by
  rcases h.write data with
    ⟨result, writer', next, taken, hWrite, hKeeps, hSize, hCount,
      hAll, _⟩
  refine
    ⟨result, writer', next, hWrite, ?_,
      fun _ => Call.strays_of_ne (by simp) result⟩
  have hAccepted :
      Call.accepted (.write data) writer result writer' =
        data.take taken :=
    Call.accepted_of_count (.write data) taken hCount hAll
  rw [hAccepted, Call.strays_of_ne (by simp), Bool.or_false]
  exact hKeeps

theorem Keeps.call_writeRange
    (h : writer.Keeps receivers codec fields world captured torn kept)
    (buffer : Bytes)
    (offset length : Nat) :
    writer.KeepsAfter receivers codec fields world captured torn kept
      (.writeRange buffer offset length) := by
  by_cases hRange : offset + length ≤ buffer.length
  · rcases h.write ((buffer.drop offset).take length) with
      ⟨result, writer', next, taken, hWrite, hKeeps, hSize,
        hCount, hAll, _⟩
    refine
      ⟨result, writer', next,
        (Call.perform_writeRange_of_le hRange _).trans hWrite, ?_,
        fun _ => Call.strays_of_ne (by simp) result⟩
    have hAccepted :
        Call.accepted (.writeRange buffer offset length) writer
            result writer' =
          ((buffer.drop offset).take length).take taken :=
      Call.accepted_of_count _ taken hCount hAll
    rw [hAccepted, Call.strays_of_ne (by simp), Bool.or_false]
    exact hKeeps
  · refine
      ⟨.error (.misuse (.range buffer.length offset length)),
        writer, world,
        Call.perform_writeRange_of_lt (Nat.lt_of_not_le hRange) _,
        ?_, fun _ => Call.strays_of_ne (by simp) _⟩
    rw [Call.accepted_of_count
      (.writeRange buffer offset length) 0 rfl (by simp),
      Call.strays_of_ne (by simp), Bool.or_false,
      List.take_zero, List.append_nil]
    exact h

theorem Keeps.call_flush
    (h : writer.Keeps receivers codec fields world captured torn kept) :
    writer.KeepsAfter receivers codec fields world captured torn kept
      .flush := by
  rcases h.flush with ⟨result, writer', next, hFlush, hKeeps, _⟩
  have hCall :
      Call.flush.action.perform (writer, world) =
        (result, writer', next) :=
    hFlush
  apply keepsAfter_of_none hCall rfl
  · rw [Call.strays_of_ne (by simp), Bool.or_false]
    exact hKeeps
  · exact fun _ => Call.strays_of_ne (by simp) result

theorem Keeps.call_finish
    (h : writer.Keeps receivers codec fields world captured torn kept) :
    writer.KeepsAfter receivers codec fields world captured torn kept
      .finish := by
  rcases h.finish with
    ⟨result, writer', next, hFinish, hKeeps, _, _, hSettled⟩
  have hSame :
      channelFailed (result.map fun _ => ()) =
        channelFailed result := by
    cases result with
    | error e => rfl
    | ok n => rfl
  apply keepsAfter_of_none (Call.perform_finish hFinish) rfl
  · rw [Call.strays_finish, hSame]
    exact hKeeps
  · rw [Call.strays_finish, hSame]
    exact hSettled

theorem Keeps.call_reset
    (h : writer.Keeps receivers codec fields world captured torn kept) :
    writer.KeepsAfter receivers codec fields world captured torn kept
      .reset := by
  rcases h.reset with ⟨writer', hReset, hKeeps, _⟩
  have hCall :
      Call.reset.action.perform (writer, world) =
        (.ok (), writer', world) :=
    hReset
  apply keepsAfter_of_none hCall rfl
  · rw [Call.strays_of_ne (by simp), Bool.or_false]
    exact hKeeps
  · exact fun _ => Call.strays_of_ne (by simp) _

theorem Keeps.call
    (h : writer.Keeps receivers codec fields world captured torn kept)
    (call : Call) :
    writer.KeepsAfter receivers codec fields world captured torn kept
      call := by
  cases call with
  | write data => exact h.call_write data
  | writeRange buffer offset length =>
    exact h.call_writeRange buffer offset length
  | flush => exact h.call_flush
  | finish => exact h.call_finish
  | reset => exact h.call_reset

end ContainerWriter

------------------------------------------------------------
-- Whole Sessions
------------------------------------------------------------

namespace Course

variable
  {ω : Type} {receivers : Receivers ω} {codec : Codec}
  {fields : Header} {captured : Bool}
  {course : Course ContainerWriter ω}

/-
  The writer has the data that the course has kept, and no
  finish fails by a channel that never fails.
-/
structure Upholds
    (receivers : Receivers ω)
    (codec : Codec)
    (fields : Header)
    (captured : Bool)
    (course : Course ContainerWriter ω) : Prop where
  keeps :
    course.writer.Keeps receivers codec fields course.world
      captured course.torn course.kept
  whole : receivers.Settled → course.torn = false

theorem Upholds.step
    (h : course.Upholds receivers codec fields captured)
    (call : Call) :
    (course.step call).Upholds receivers codec fields
      captured := by
  rcases h.keeps.call call with
    ⟨result, writer, world, hCall, hKeeps, hSettled⟩
  have hStep := Course.step_eq hCall
  have hTorn :
      (course.step call).torn =
        (course.torn || call.strays result) := by
    rw [hStep]
    simp [Course.torn]
  constructor
  · rw [hTorn, hStep]
    exact hKeeps
  · intro hSettles
    rw [hTorn, h.whole hSettles, hSettled hSettles]
    rfl

theorem Upholds.run
    (h : course.Upholds receivers codec fields captured)
    (calls : List Call) :
    (course.run calls).Upholds receivers codec fields
      captured :=
  run_of_step (fun _ hCourse => hCourse.step) course calls h

theorem Upholds.attach
    {attached : Course ContainerWriter ω}
    (h : course.Upholds receivers codec fields captured)
    (hAttach : course.attach receivers.index = .ok attached) :
    attached.Upholds receivers codec fields true := by
  rcases writer_of_attach hAttach with ⟨writer, hWriter, rfl⟩
  exact ⟨(h.keeps.attach hWriter).1, h.whole⟩

/- A course ends between members, with nothing held over. -/
theorem Upholds.conclude
    {final : Course ContainerWriter ω}
    {ending : Ending}
    (h : course.Upholds receivers codec fields captured)
    (hConclude : course.conclude ending = .ok final) :
    final.Upholds receivers codec fields captured ∧
      final.writer.stage ≠ .opened ∧
      final.log = course.log := by
  rcases parts_of_conclude hConclude with
    ⟨writer, world, hLast, rfl⟩
  cases ending with
  | finish =>
    rcases h.keeps.finish with
      ⟨result, writer', next, hFinish, hKeeps, _, hStage, _⟩
    have hCall := Call.perform_finish hFinish
    rw [Ending.action, hCall] at hLast
    cases result with
    | error e => cases hLast
    | ok n =>
      rw [channelFailed, Bool.or_false] at hKeeps
      cases hLast
      refine ⟨⟨hKeeps, h.whole⟩, ?_, rfl⟩
      rw [hStage n rfl]
      simp
  | close =>
    rcases h.keeps.close hLast with ⟨hKeeps, hStage⟩
    exact ⟨⟨hKeeps, h.whole⟩, hStage, rfl⟩

end Course

namespace WriterSession

open Segment

variable
  {session : WriterSession}
  {course : Course ContainerWriter SinkPair}

/- A session starts with nothing kept and nothing torn. -/
theorem start_spec
    (hData : session.data.Accepting)
    (hIndex : session.index.Reliable)
    (hStart : session.start = .ok course) :
    course.Upholds (SinkPair.receivers hData hIndex)
      session.codec
      (ContainerWriter.headerOf session.codec session.options
        session.clock)
      false := by
  unfold start at hStart
  split at hStart
  · cases hStart
  rename_i writer world hNew
  cases hStart
  constructor
  · exact ContainerWriter.keeps_new
      (SinkPair.hold_empty session.data session.index) hNew
  · exact fun _ => rfl

theorem attach_spec
    {attached : Course ContainerWriter SinkPair}
    (hData : session.data.Accepting)
    (hIndex : session.index.Reliable)
    {fields : Header}
    (h :
      course.Upholds (SinkPair.receivers hData hIndex)
        session.codec fields false)
    (hAttach : session.attach course = .ok attached) :
    attached.Upholds (SinkPair.receivers hData hIndex)
      session.codec fields session.indexed := by
  unfold attach at hAttach
  split at hAttach
  · rename_i hIndexed
    rw [hIndexed]
    exact h.attach hAttach
  · rename_i hPlain
    cases hAttach
    rw [Bool.eq_false_iff.mpr hPlain]
    exact h

/- A session that ends well has gone through all its parts. -/
theorem parts_of_play
    (hPlay : session.play = .ok course) :
    ∃ opened attached,
      session.start = .ok opened ∧
      session.attach (opened.run session.before) =
        .ok attached ∧
      (attached.run session.after).conclude session.ending =
        .ok course := by
  rcases ok_of_bind hPlay with ⟨opened, hStart, hRest⟩
  rcases ok_of_bind hRest with ⟨attached, hAttach, hConclude⟩
  exact ⟨opened, attached, hStart, hAttach, hConclude⟩

/- A session whose parts end well ends well. -/
theorem play_of_parts
    {opened attached : Course ContainerWriter SinkPair}
    (hStart : session.start = .ok opened)
    (hAttach :
      session.attach (opened.run session.before) = .ok attached)
    (hConclude :
      (attached.run session.after).conclude session.ending =
        .ok course) :
    session.play = .ok course := by
  unfold play
  rw [hStart]
  simp only [bind, Except.bind]
  rw [hAttach]
  exact hConclude

/-
  At the end of a session the data that was kept is in the
  frames, and the index is written.
-/
theorem play_spec
    (hData : session.data.Accepting)
    (hIndex : session.index.Reliable)
    (hPlay : session.play = .ok course) :
    ∃ segments,
      course.writer.Stands (SinkPair.receivers hData hIndex)
        session.codec
        (ContainerWriter.headerOf session.codec session.options
          session.clock)
        course.world session.indexed course.torn segments ∧
      course.writer.stage ≠ .opened ∧
      Segment.contents segments = course.kept ∧
      (session.data.Reliable → course.torn = false) := by
  rcases parts_of_play hPlay with
    ⟨opened, attached, hStart, hAttach, hConclude⟩
  have hOpened := start_spec hData hIndex hStart
  have hAttached :=
    attach_spec hData hIndex (hOpened.run session.before) hAttach
  rcases (hAttached.run session.after).conclude hConclude with
    ⟨hUpholds, hStage, _⟩
  rcases hUpholds.keeps with ⟨segments, hStands, hKept⟩
  refine ⟨segments, hStands, hStage, ?_, ?_⟩
  · rw [← hKept,
      Tape.toBytes_eq_nil (hStands.idle hStage).1,
      List.append_nil]
  · intro hReliable
    exact hUpholds.whole
      (SinkPair.settled_receivers hReliable hIndex)

end WriterSession

end SplitStream
