import Mathlib
import SplitStream.Proofs.Codec.Lossless
import SplitStream.Proofs.Session.Outcome
import SplitStream.Proofs.Writer.Capturing
import SplitStream.Proofs.Writer.Lagging
import SplitStream.Proofs.Writer.Renewal
import SplitStream.Proofs.Writer.Thriving

/-
  Writers that are reset. After a finish, a reset makes a
  writer as good as a fresh one: the same calls return the same
  but for the frames of earlier members, and what they append to
  the sinks is what a fresh writer has laid out in sinks of its
  own. With a codec that has no state, this is all that a
  session of these calls writes. In an open member, a reset
  drops what is pending, and nothing else.

  This rests on the codec having written what it reports. The
  buffer it writes to is not cleared, and a codec that reports
  more than it has written passes on what an earlier block has
  left there.

  Main declarations:
    * `Call.reply`
    * `FrameWriter.replies`
    * `WriterSession.Renews`
    * `WriterSession.Drops`
    * `WriterSession.restarts_of_steady`
    * `WriterSession.renews_and_drops`
    * `WriterSession.not_renews`
-/

------------------------------------------------------------
-- Replies
------------------------------------------------------------

namespace SplitStream

section Replies

variable {ω : Type} {W : Type → Type} [FrameWriter W]

/- What a call returns: a finish returns the frames so far. -/
def Call.reply : Call → Action (W ω × ω) (Option Nat)
  | finish => some <$> FrameWriter.finish
  | call => (fun _ => none) <$> call.action

/- What calls return, one after another, and where they end. -/
def FrameWriter.replies :
    List Call →
      W ω × ω → List (Except Error (Option Nat)) × W ω × ω
  | [], state => ([], state)
  | call :: calls, state =>
      let (reply, next) := call.reply.perform state
      let (later, last) := replies calls next
      (reply :: later, last)

/- A reply that counts the frames of earlier members too. -/
def countedFrom
    (frames : Nat)
    (reply : Except Error (Option Nat)) :
    Except Error (Option Nat) :=
  reply.map (Option.map (frames + ·))

/- How many frames there were does not make a call succeed. -/
theorem map_countedFrom
    (frames : Nat)
    (reply : Except Error (Option Nat)) :
    (countedFrom frames reply).map (fun _ => ()) =
      reply.map fun _ => () := by
  cases reply with
  | error e => rfl
  | ok n => rfl

theorem Call.reply_of_ne
    {call : Call}
    (h : call ≠ finish) :
    (call.reply : Action (W ω × ω) (Option Nat)) =
      (fun _ => none) <$> call.action := by
  cases call with
  | finish => contradiction
  | _ => rfl

/- A call does the same whether or not its reply is kept. -/
theorem Call.perform_action
    (call : Call)
    (state : W ω × ω) :
    call.action.perform state =
      ((call.reply.perform state).1.map fun _ => (),
        (call.reply.perform state).2) := by
  by_cases hCall : call = finish
  · subst hCall
    rcases hFinish : FrameWriter.finish.perform state with
      ⟨result, next⟩
    rw [Call.perform_finish hFinish, Call.reply,
      Step.perform_map, hFinish]
    cases result with
    | error e => rfl
    | ok n => rfl
  · rw [Call.reply_of_ne hCall, Step.perform_map]
    rcases call.action.perform state with ⟨e | a, next⟩
    · rfl
    · rfl

/- A course of calls goes where their replies do. -/
theorem Course.run_replies
    (course : Course W ω)
    (calls : List Call) :
    let replies :=
      FrameWriter.replies calls (course.writer, course.world)
    ((course.run calls).writer, (course.run calls).world) =
        replies.2 ∧
      (course.run calls).log =
        course.log ++
          calls.zip
            (replies.1.map fun reply => reply.map fun _ => ()) := by
  induction calls generalizing course with
  | nil => exact ⟨rfl, (List.append_nil _).symm⟩
  | cons call calls ih =>
    have hStep :=
      Course.step_eq
        (call.perform_action (course.writer, course.world))
    rcases ih (course.step call) with ⟨hEnd, hLog⟩
    have hRun :
        course.run (call :: calls) =
          (course.step call).run calls :=
      rfl
    rw [hRun, hEnd, hLog, hStep]
    refine ⟨rfl, ?_⟩
    rw [List.append_assoc]
    rfl

/- A course that ends by a finish has finished. -/
theorem Course.finish_of_conclude
    {course last : Course W ω}
    (hLast : course.conclude .finish = .ok last) :
    last.log = course.log ∧
      ∃ n,
        FrameWriter.finish.perform (course.writer, course.world) =
          (.ok n, last.writer, last.world) := by
  rcases Course.parts_of_conclude hLast with
    ⟨writer, world, hCall, rfl⟩
  rcases hFinish :
    FrameWriter.finish.perform (course.writer, course.world) with
    ⟨e | n, next⟩
  · rw [Ending.action, Call.perform_finish hFinish] at hCall
    cases hCall
  · rw [Ending.action, Call.perform_finish hFinish] at hCall
    cases hCall
    exact ⟨rfl, n, rfl⟩

theorem Course.conclude_of_finish
    {course : Course W ω}
    {n : Nat}
    {next : W ω × ω}
    (hFinish :
      FrameWriter.finish.perform (course.writer, course.world) =
        (.ok n, next)) :
    course.conclude .finish =
      .ok { course with writer := next.1, world := next.2 } := by
  rw [Course.conclude, Ending.action, Call.perform_finish hFinish]
  rfl

end Replies

------------------------------------------------------------
-- Used Writers And Fresh Ones
------------------------------------------------------------

namespace Renewal

variable
  {ω ω' : Type} {renewal : Renewal ω ω'}
  {left : ContainerWriter ω × ω}
  {right : ContainerWriter ω' × ω'}

/- Every call but a finish comes to the same. -/
theorem Renewed.call
    (h : renewal.Renewed left right)
    {call : Call}
    (hCall : call ≠ .finish) :
    ∃ result s t,
      call.action.perform left = (result, s) ∧
      call.action.perform right = (result, t) ∧
      renewal.Renewed s t := by
  cases call with
  | write data => exact h.write data
  | writeRange buffer offset length =>
    by_cases hRange : offset + length ≤ buffer.length
    · rw [Call.perform_writeRange_of_le hRange,
        Call.perform_writeRange_of_le hRange]
      exact h.write _
    · have hOutside := Nat.lt_of_not_le hRange
      exact
        ⟨_, left, right,
          Call.perform_writeRange_of_lt hOutside left,
          Call.perform_writeRange_of_lt hOutside right, h⟩
  | flush => exact h.flush
  | finish => contradiction
  | reset =>
    rcases h.reset with ⟨s, t, hLeft, hRight, hNext⟩
    exact ⟨_, s, t, hLeft, hRight, hNext⟩

/- Every call replies the same but for the frames before. -/
theorem Renewed.reply
    (h : renewal.Renewed left right)
    (call : Call) :
    ∃ reply s t,
      call.reply.perform left =
        (countedFrom (Segment.frames renewal.before) reply, s) ∧
      call.reply.perform right = (reply, t) ∧
      renewal.Renewed s t := by
  by_cases hCall : call = .finish
  · subst hCall
    rcases h.finish with ⟨result, s, t, hLeft, hRight, hNext, _⟩
    have hFirst :
        FrameWriter.finish.perform left = (result.map _, s) :=
      hLeft
    have hSecond :
        FrameWriter.finish.perform right = (result, t) :=
      hRight
    refine ⟨result.map some, s, t, ?_, ?_, hNext⟩
    · rw [Call.reply, Step.perform_map, hFirst]
      cases result with
      | error e => rfl
      | ok n => rfl
    · rw [Call.reply, Step.perform_map, hSecond]
  · rcases h.call hCall with
      ⟨result, s, t, hLeft, hRight, hNext⟩
    refine ⟨result.map fun _ => none, s, t, ?_, ?_, hNext⟩
    · rw [Call.reply_of_ne hCall, Step.perform_map, hLeft]
      cases result with
      | error e => rfl
      | ok _ => rfl
    · rw [Call.reply_of_ne hCall, Step.perform_map, hRight]

/- So do all calls, one after another. -/
theorem Renewed.replies
    (h : renewal.Renewed left right)
    (calls : List Call) :
    ∃ replies s t,
      FrameWriter.replies calls left =
        (replies.map
            (countedFrom (Segment.frames renewal.before)),
          s) ∧
      FrameWriter.replies calls right = (replies, t) ∧
      renewal.Renewed s t := by
  induction calls generalizing left right with
  | nil => exact ⟨[], left, right, rfl, rfl, h⟩
  | cons call calls ih =>
    rcases h.reply call with
      ⟨reply, s, t, hLeft, hRight, hNext⟩
    rcases ih hNext with
      ⟨replies, s', t', hFirst, hSecond, hLast⟩
    refine ⟨reply :: replies, s', t', ?_, ?_, hLast⟩
    · rw [FrameWriter.replies, hLeft]
      simp only [hFirst, List.map_cons]
    · rw [FrameWriter.replies, hRight]
      simp only [hSecond]

/-
  After a finish that succeeds, what both writers have laid
  out is what their receivers have.
-/
theorem Renewed.received
    (h : renewal.Renewed left right)
    (hStage : left.1.stage = .finished) :
    ∃ added,
      renewal.used.Holds left.2
        (Segment.layout (renewal.before ++ added))
        (if renewal.captured then
          (Segment.offsets 0 (renewal.before ++ added)).flatMap
            FrameIndex.encodeOffset
        else
          []) ∧
      renewal.fresh.Holds right.2 (Segment.layout added)
        (if renewal.captured then
          (Segment.offsets 0 added).flatMap
            FrameIndex.encodeOffset
        else
          []) := by
  rcases h with ⟨added, hLevel⟩ | hDue
  · have hUsed := hLevel.used.idle (by simp [hStage])
    have hFresh :=
      hLevel.fresh.idle (by simp [hLevel.stage, hStage])
    exact
      ⟨added,
        (Outlet.stands_iff_carries.mp hLevel.used.outlet).received
          hUsed.2,
        (Outlet.stands_iff_carries.mp hLevel.fresh.outlet).received
          hFresh.2⟩
  · cases hDue.due.symm.trans hStage

end Renewal

------------------------------------------------------------
-- Sessions
------------------------------------------------------------

/-
  What was appended to two sinks is what two fresh ones have
  received: the same data, and the same index entries, moved
  by the length of the data before.
-/
structure SinkPair.Appended
    (captured : Bool)
    (before after fresh : SinkPair) : Prop where
  data :
    after.data.contents =
      before.data.contents ++ fresh.data.contents
  index :
    ∃ segments,
      fresh.data.contents = Segment.layout segments ∧
      let offsets :=
        if captured then Segment.offsets 0 segments else []
      let moved :=
        offsets.map (before.data.contents.length + ·)
      fresh.index.contents =
          offsets.flatMap FrameIndex.encodeOffset ∧
        after.index.contents =
          before.index.contents ++
            moved.flatMap FrameIndex.encodeOffset

namespace WriterSession

variable
  {session : WriterSession}
  {course : Course ContainerWriter SinkPair}

/-
  A session of a fresh writer over sinks of its own, with the
  same codec in the state that a number of blocks leaves.
-/
def afresh
    (session : WriterSession)
    (attempts : Nat)
    (data index : Conduct) : WriterSession :=
  { session with
    codec := session.codec.after attempts
    data := data
    index := index
    before := []
    after := [] }

/-
  After the course and a reset, the writer is as good as a
  fresh one: all calls return the same but for the frames of
  earlier members, and once a finish has succeeded, what was
  appended to the sinks is what the fresh writer has written.
-/
def Renews
    (session : WriterSession)
    (course : Course ContainerWriter SinkPair) : Prop :=
  ∀ data index : Conduct,
    data.Reliable →
    index.Reliable →
      let frames := FrameWriter.frames course.writer
      let attempts := course.writer.regrouper.attempts
      let fresh := session.afresh attempts data index
      ∃ used opened started,
        FrameWriter.reset.perform (course.writer, course.world) =
          (.ok (), used, course.world) ∧
        fresh.start = .ok opened ∧
        fresh.attach opened = .ok started ∧
        ∀ calls,
          let left :=
            FrameWriter.replies calls (used, course.world)
          let right :=
            FrameWriter.replies calls
              (started.writer, started.world)
          left.1 = right.1.map (countedFrom frames) ∧
          ∀ n last,
            FrameWriter.finish.perform left.2 = (.ok n, last) →
              ∃ m end',
                FrameWriter.finish.perform right.2 =
                  (.ok m, end') ∧
                n = frames + m ∧
                SinkPair.Appended session.indexed course.world
                  last.2 end'.2

/-
  In an open member, a reset leaves the sinks and what is
  told of them as they are, and what it drops are the bytes
  that were pending: those that stay are in the frames of the
  sink.
-/
structure Drops
    (course : Course ContainerWriter SinkPair) : Prop where
  log : (course.step .reset).log = course.log ++ [(.reset, .ok ())]
  world : (course.step .reset).world = course.world
  outlet :
    (course.step .reset).writer.outlet = course.writer.outlet
  stage : (course.step .reset).writer.stage = .opened
  pending : FrameWriter.pending (course.step .reset).writer = 0
  dropped :
    ∃ segments dropped,
      course.world.data.contents = Segment.layout segments ∧
      (course.step .reset).kept = Segment.contents segments ∧
      course.kept = (course.step .reset).kept ++ dropped ∧
      dropped.length = FrameWriter.pending course.writer

/- A session starts with a new regrouper. -/
theorem regrouper_of_start
    (hStart : session.start = .ok course) :
    Regrouper.new session.codec session.options.blockSize =
      .ok course.writer.regrouper := by
  unfold start at hStart
  split at hStart
  · cases hStart
  · rename_i writer world hNew
    cases hStart
    exact ContainerWriter.regrouper_of_new hNew

/- No call of a writer changes the kin of its regrouper. -/
theorem lagging_kin
    (origin : Regrouper) :
    FrameWriter.Lagging (ω := SinkPair) ContainerWriter
      (fun _ => False) (fun _ _ => False) (fun _ _ => True)
      origin := by
  apply ContainerWriter.lagging
  exact
    { same := fun _ _ hNever => hNever.elim
      capture := Step.lags_of_kept fun _ _ => trivial
      channel := Step.lags_of_kept fun _ _ => trivial
      frame := fun _ _ _ => Step.lags_of_kept fun _ _ => trivial
      header := fun _ => Step.lags_of_kept fun _ _ => trivial
      terminator := Step.lags_of_kept fun _ _ => trivial }

theorem kin_run
    {origin : Regrouper}
    (course : Course ContainerWriter SinkPair)
    (calls : List Call)
    (hKin : origin.Kin course.writer.regrouper) :
    origin.Kin (course.run calls).writer.regrouper := by
  have hAhead :
      FrameWriter.Ahead origin (fun _ _ => True)
        (course.writer, course.world)
        (course.writer, course.world) :=
    ⟨hKin, trivial⟩
  exact ((lagging_kin origin).ahead_run course calls hAhead).1

/- Only the outlet of the writer changes, if anything does. -/
theorem parts_of_attach
    {attached : Course ContainerWriter SinkPair}
    (hAttach : session.attach course = .ok attached) :
    (session.indexed = false ∧ attached = course) ∨
      (session.indexed = true ∧
        ∃ outlet,
          course.writer.attach SinkPair.indexChannel =
            .ok { course.writer with outlet := outlet } ∧
          attached =
            { course with
              writer :=
                { course.writer with outlet := outlet } }) := by
  unfold attach at hAttach
  by_cases hIndexed : session.indexed = true
  · right
    rw [if_pos hIndexed] at hAttach
    rcases Course.writer_of_attach hAttach with
      ⟨writer, hWriter, rfl⟩
    rcases ContainerWriter.outlet_of_attach hWriter with
      ⟨outlet, _, rfl⟩
    exact ⟨hIndexed, outlet, hWriter, rfl⟩
  · left
    rw [if_neg hIndexed] at hAttach
    cases hAttach
    exact ⟨Bool.eq_false_iff.mpr hIndexed, rfl⟩

theorem kin_attach
    {attached : Course ContainerWriter SinkPair}
    (hAttach : session.attach course = .ok attached) :
    attached.writer.regrouper = course.writer.regrouper := by
  rcases parts_of_attach hAttach with
    ⟨_, rfl⟩ | ⟨_, outlet, _, rfl⟩
  · rfl
  · rfl

theorem kin_conclude
    {origin : Regrouper}
    {last : Course ContainerWriter SinkPair}
    {ending : Ending}
    (hConclude : course.conclude ending = .ok last)
    (hKin : origin.Kin course.writer.regrouper) :
    origin.Kin last.writer.regrouper := by
  have hAhead :
      FrameWriter.Ahead origin (fun _ _ => True)
        (course.writer, course.world)
        (course.writer, course.world) :=
    ⟨hKin, trivial⟩
  have hEnding :=
    (((lagging_kin origin).ending ending).behind _ _ hAhead).1
  rcases Course.parts_of_conclude hConclude with
    ⟨writer, world, hLast, rfl⟩
  unfold Step.final at hEnding
  rw [hLast] at hEnding
  exact hEnding

/- The regrouper of a session stays of the kin of a new one. -/
theorem kin_of_play
    (hPlay : session.play = .ok course) :
    ∃ origin,
      Regrouper.new session.codec session.options.blockSize =
        .ok origin ∧
      origin.Kin course.writer.regrouper := by
  rcases parts_of_play hPlay with
    ⟨opened, attached, hStart, hAttach, hConclude⟩
  have hOpened : opened.writer.regrouper.Kin _ :=
    kin_run opened session.before ⟨rfl, rfl⟩
  rw [← kin_attach hAttach] at hOpened
  exact
    ⟨opened.writer.regrouper, regrouper_of_start hStart,
      kin_conclude hConclude
        (kin_run attached session.after hOpened)⟩

/- An index is attached to a course without frames. -/
theorem attach_of_no_frames
    (session : WriterSession)
    (hNone : course.writer.outlet.frames = 0) :
    ∃ attached, session.attach course = .ok attached := by
  unfold attach
  by_cases hIndexed : session.indexed = true
  · let outlet : Outlet SinkPair :=
      { course.writer.outlet with
        capture := some (.new SinkPair.indexChannel) }
    have hOutlet :
        course.writer.outlet.attach SinkPair.indexChannel =
          .ok outlet := by
      simp [Outlet.attach, hNone, outlet]
    have hWriter :
        FrameWriter.attach course.writer SinkPair.indexChannel =
          .ok { course.writer with outlet := outlet } := by
      change
        ContainerWriter.attach course.writer
          SinkPair.indexChannel = _
      rw [ContainerWriter.attach, hOutlet]
      rfl
    rw [if_pos hIndexed, Course.attach, hWriter]
    exact ⟨_, rfl⟩
  · rw [if_neg hIndexed]
    exact ⟨course, rfl⟩

/- Where a writer stands, it stands with its index as well. -/
theorem stands_of_attach
    {receivers : Receivers SinkPair}
    {codec : Codec}
    {fields : Header}
    {torn : Bool}
    {segments : List Segment}
    {attached : Course ContainerWriter SinkPair}
    (hStands :
      course.writer.Stands receivers codec fields course.world
        false torn segments)
    (hIndex : receivers.index = SinkPair.indexChannel)
    (hAttach : session.attach course = .ok attached) :
    attached.writer.Stands receivers codec fields attached.world
        session.indexed torn segments ∧
      attached.writer.stage = course.writer.stage := by
  rcases parts_of_attach hAttach with
    ⟨hPlain, rfl⟩ | ⟨hIndexed, outlet, hWriter, rfl⟩
  · rw [hPlain]
    exact ⟨hStands, rfl⟩
  · rw [← hIndex] at hWriter
    rw [hIndexed]
    exact ⟨(hStands.attach hWriter).1, rfl⟩

/- A fresh session starts with a header in its sink. -/
theorem exists_afresh
    (session : WriterSession)
    {data index : Conduct}
    (hData : data.Reliable)
    (hIndex : index.Reliable)
    (attempts : Nat)
    (hSize :
      0 < session.options.blockSize ∧
        session.options.blockSize ≤ maxBlockSize) :
    let fresh := session.afresh attempts data index
    let fields :=
      ContainerWriter.headerOf session.codec session.options
        session.clock
    ∃ opened started,
      fresh.start = .ok opened ∧
      fresh.attach opened = .ok started ∧
      started.writer.Stands
        (SinkPair.receivers hData.1 hIndex)
        (session.codec.after attempts) fields started.world
        session.indexed false [.header fields] ∧
      started.writer.stage = .opened ∧
      Regrouper.new (session.codec.after attempts)
          session.options.blockSize =
        .ok started.writer.regrouper := by
  intro fresh fields
  have hHolds :
      (SinkPair.receivers hData.1 hIndex).Holds
        (.empty data index) [] [] :=
    SinkPair.hold_empty data index
  rcases ContainerWriter.stands_new session.clock hHolds hSize
    with ⟨writer, world, hNew, hStands, hStage, _, _⟩
  let opened : Course ContainerWriter SinkPair :=
    .opened writer world
  have hStart : fresh.start = .ok opened := by
    unfold start
    rw [show
      (ContainerWriter.new SinkPair.dataChannel fresh.codec
          fresh.options fresh.clock).perform
          (.empty fresh.data fresh.index) = (.ok writer, world)
      from hNew]
    rfl
  have hOpened :
      opened.writer.Stands (SinkPair.receivers hData.1 hIndex)
        (session.codec.after attempts) fields opened.world false
        false [.header fields] :=
    hStands
  rcases attach_of_no_frames fresh hOpened.outlet.frames with
    ⟨started, hAttach⟩
  rcases stands_of_attach hOpened rfl hAttach with
    ⟨hStarted, hSame⟩
  refine
    ⟨opened, started, hStart, hAttach, hStarted,
      hSame.trans hStage, ?_⟩
  rw [kin_attach hAttach]
  exact regrouper_of_start hStart

/- A regrouper is made for the sizes that blocks can have. -/
theorem size_of_new
    {codec : Codec}
    {blockSize : Nat}
    {regrouper : Regrouper}
    (hNew : Regrouper.new codec blockSize = .ok regrouper) :
    (0 < blockSize ∧ blockSize ≤ maxBlockSize) ∧
      regrouper.blockSize = blockSize := by
  unfold Regrouper.new at hNew
  split at hNew
  · rename_i hSize
    cases hNew
    exact ⟨hSize, rfl⟩
  · cases hNew

/-
  A used writer of a session and a fresh one, which starts
  where a number of segments have been laid out before.
-/
def renewal
    (session : WriterSession)
    {data index : Conduct}
    (hData : session.data.Reliable)
    (hIndex : session.index.Reliable)
    (hFreshData : data.Reliable)
    (hFreshIndex : index.Reliable)
    (attempts : Nat)
    (before : List Segment) : Renewal SinkPair SinkPair where
  used := SinkPair.receivers hData.1 hIndex
  fresh := SinkPair.receivers hFreshData.1 hFreshIndex
  used_settled := SinkPair.settled_receivers hData hIndex
  fresh_settled :=
    SinkPair.settled_receivers hFreshData hFreshIndex
  codec := session.codec
  attempts := attempts
  fields :=
    ContainerWriter.headerOf session.codec session.options
      session.clock
  captured := session.indexed
  before := before

/-
  After a reset, the header of a writer that has finished is
  due, where a fresh one has laid it out.
-/
theorem exists_due
    (hData : session.data.Reliable)
    (hIndex : session.index.Reliable)
    (hReported : session.codec.WritesReported)
    (hPlay : session.play = .ok course)
    {data index : Conduct}
    (hFreshData : data.Reliable)
    (hFreshIndex : index.Reliable) :
    let attempts := course.writer.regrouper.attempts
    let fresh := session.afresh attempts data index
    ∃ before used opened started,
      let renewal :=
        session.renewal hData hIndex hFreshData hFreshIndex
          attempts before
      FrameWriter.reset.perform (course.writer, course.world) =
        (.ok (), used, course.world) ∧
      fresh.start = .ok opened ∧
      fresh.attach opened = .ok started ∧
      renewal.Due (used, course.world)
        (started.writer, started.world) ∧
      course.writer.outlet.Stands renewal.used course.world
        session.indexed before ∧
      course.writer.outlet.Drained := by
  intro attempts fresh
  rcases play_spec hData.1 hIndex hPlay with
    ⟨before, hStands, hStage, _, hWhole⟩
  rw [hWhole hData] at hStands
  rcases kin_of_play hPlay with ⟨origin, hNew, hKin⟩
  rcases size_of_new hNew with ⟨hSize, hOrigin⟩
  rcases exists_afresh session hFreshData hFreshIndex attempts
    hSize with
    ⟨opened, started, hStart, hAttach, hStarted, hOpened, hFresh⟩
  rcases hStands.reset with ⟨used, hReset, hUsed, hSame⟩
  have hResumes :
      used.regrouper.Resumes attempts
        started.writer.regrouper := by
    rw [hSame]
    rw [← hOrigin, ← hKin.blockSize, ← hStands.codec_eq]
      at hFresh
    rw [← hStands.codec_eq] at hReported
    exact Regrouper.resumes_of_reset hReported hFresh
  have hDue : used.stage = .headerDue := by
    rw [ContainerWriter.stage_of_reset hReset]
    cases hCase : course.writer.stage with
    | opened => exact absurd hCase hStage
    | headerDue => rfl
    | finished => rfl
  exact
    ⟨before, used, opened, started, hReset, hStart, hAttach,
      { used := hUsed
        fresh := hStarted
        regrouper := hResumes
        due := hDue
        opened := hOpened },
      hStands.outlet, (hStands.idle hStage).2⟩

/-
  What both sinks have received behind the segments before is
  what fresh ones have received.
-/
theorem appended_of_holds
    {captured : Bool}
    {data index data' index' : Conduct}
    {sinks later fresh : SinkPair}
    {before added : List Segment}
    (hBefore :
      SinkPair.Hold data index sinks (Segment.layout before)
        (if captured then
          (Segment.offsets 0 before).flatMap
            FrameIndex.encodeOffset
        else
          []))
    (hLater :
      SinkPair.Hold data index later
        (Segment.layout (before ++ added))
        (if captured then
          (Segment.offsets 0 (before ++ added)).flatMap
            FrameIndex.encodeOffset
        else
          []))
    (hFresh :
      SinkPair.Hold data' index' fresh (Segment.layout added)
        (if captured then
          (Segment.offsets 0 added).flatMap
            FrameIndex.encodeOffset
        else
          [])) :
    SinkPair.Appended captured sinks later fresh := by
  have hMoved :
      Segment.offsets (Segment.layout before).length added =
        (Segment.offsets 0 added).map
          ((Segment.layout before).length + ·) :=
    Segment.offsets_add (Segment.layout before).length 0 added
  refine ⟨?_, added, hFresh.data.contents, ?_⟩
  · rw [hLater.data.contents, hBefore.data.contents,
      hFresh.data.contents, Segment.layout_append]
  · dsimp only
    rw [hFresh.index.contents, hLater.index.contents,
      hBefore.index.contents, hBefore.data.contents]
    cases captured with
    | false => exact ⟨rfl, rfl⟩
    | true =>
      refine ⟨rfl, ?_⟩
      simp only [if_true]
      rw [Segment.offsets_append, Nat.zero_add, hMoved,
        List.flatMap_append]

/-
  After a finish and a reset, a writer is as good as a fresh
  one.
-/
theorem renews
    (hData : session.data.Reliable)
    (hIndex : session.index.Reliable)
    (hReported : session.codec.WritesReported)
    (hPlay : session.play = .ok course) :
    session.Renews course := by
  intro data index hFreshData hFreshIndex frames attempts fresh
  rcases exists_due hData hIndex hReported hPlay hFreshData
    hFreshIndex with
    ⟨before, used, opened, started, hReset, hStart, hAttach, hDue,
      hStands, hDrained⟩
  refine ⟨used, opened, started, hReset, hStart, hAttach, ?_⟩
  intro calls left right
  have hFrames : frames = Segment.frames before := hStands.frames
  have hRenewed : Renewal.Renewed _ _ _ := .inr hDue
  rcases hRenewed.replies calls with
    ⟨replies, s, t, hLeft, hRight, hNext⟩
  have hLeftReplies : left = (_, s) := hLeft
  have hRightReplies : right = (replies, t) := hRight
  rw [hLeftReplies, hRightReplies, hFrames]
  refine ⟨rfl, ?_⟩
  intro n last hFinish
  rcases hNext.finish with
    ⟨result, s', t', hUsed, hFresh, hOver, hStage⟩
  have hUsedFinish :
      FrameWriter.finish.perform s = (result.map _, s') :=
    hUsed
  have hLast := hUsedFinish.symm.trans hFinish
  cases result with
  | error e => cases hLast
  | ok m =>
    cases hLast
    rcases hOver.received (hStage m rfl) with
      ⟨added, hReceived, hReceivedFresh⟩
    exact
      ⟨m, t', hFresh, rfl,
        appended_of_holds
          ((Outlet.stands_iff_carries.mp hStands).received
            hDrained)
          hReceived hReceivedFresh⟩

/-
  A session with the same codec over sinks of its own: some
  calls, and a finish.
-/
def anew
    (session : WriterSession)
    (data index : Conduct)
    (calls : List Call) : WriterSession :=
  { session with
    data := data
    index := index
    before := []
    after := calls
    ending := .finish }

/- Without a state, a codec is afresh as it was. -/
theorem start_afresh_of_steady
    (hSteady : session.codec.Steady)
    (attempts : Nat)
    (data index : Conduct)
    (calls : List Call) :
    (session.afresh attempts data index).start =
      (session.anew data index calls).start := by
  unfold start afresh anew
  rw [Codec.after_of_steady hSteady]

/- No call is in the log of a session before the first one. -/
theorem log_of_start
    {started : Course ContainerWriter SinkPair}
    (hStart : session.start = .ok course)
    (hAttach : session.attach course = .ok started) :
    started.log = [] := by
  have hCourse : course.log = [] := by
    unfold start at hStart
    split at hStart
    · cases hStart
    · cases hStart
      rfl
  rcases parts_of_attach hAttach with
    ⟨_, rfl⟩ | ⟨_, _, _, rfl⟩
  · exact hCourse
  · exact hCourse

/-
  With a codec that has no state, what follows a finish and a
  reset is a session of its own: every call comes to the same,
  and what it adds to the sinks is the whole output.
-/
theorem restarts_of_steady
    (hData : session.data.Reliable)
    (hIndex : session.index.Reliable)
    (hReported : session.codec.WritesReported)
    (hSteady : session.codec.Steady)
    (hPlay : session.play = .ok course)
    {calls : List Call}
    {last : Course ContainerWriter SinkPair}
    (hLast :
      ((course.step .reset).run calls).conclude .finish =
        .ok last)
    {data index : Conduct}
    (hFreshData : data.Reliable)
    (hFreshIndex : index.Reliable) :
    ∃ fresh,
      (session.anew data index calls).play = .ok fresh ∧
      last.log = (course.step .reset).log ++ fresh.log ∧
      SinkPair.Appended session.indexed course.world last.world
        fresh.world := by
  rcases renews hData hIndex hReported hPlay data index hFreshData
    hFreshIndex with
    ⟨used, opened, started, hReset, hStart, hAttach, hCalls⟩
  have hStarted := log_of_start hStart hAttach
  rw [start_afresh_of_steady hSteady _ data index calls] at hStart
  rcases hCalls calls with ⟨hReplies, hFinishes⟩
  have hStep :
      (course.step .reset).writer = used ∧
        (course.step .reset).world = course.world := by
    have hCall :
        Call.reset.action.perform (course.writer, course.world) =
          (.ok (), used, course.world) :=
      hReset
    rw [Course.step_eq hCall]
    exact ⟨rfl, rfl⟩
  rcases (course.step .reset).run_replies calls with
    ⟨hUsed, hUsedLog⟩
  rcases started.run_replies calls with ⟨hFresh, hFreshLog⟩
  rw [hStep.1, hStep.2] at hUsed hUsedLog
  rcases Course.finish_of_conclude hLast with ⟨hLog, n, hFinish⟩
  rw [hUsed] at hFinish
  rcases hFinishes n _ hFinish with
    ⟨m, next, hFreshFinish, _, hAppended⟩
  rw [← hFresh] at hFreshFinish
  refine
    ⟨{ started.run calls with
        writer := next.1
        world := next.2 }, ?_, ?_, hAppended⟩
  · exact
      play_of_parts hStart hAttach
        (Course.conclude_of_finish hFreshFinish)
  · rw [hLog, hUsedLog, hReplies, hFreshLog, hStarted,
      List.nil_append, List.map_map]
    simp only [Function.comp_def, map_countedFrom]

/- In an open member, a reset drops what is pending. -/
theorem drops
    {opened attached : Course ContainerWriter SinkPair}
    (hData : session.data.Accepting)
    (hIndex : session.index.Reliable)
    (hStart : session.start = .ok opened)
    (hAttach :
      session.attach (opened.run session.before) = .ok attached)
    (hOpened :
      (attached.run session.after).writer.stage = .opened) :
    Drops (attached.run session.after) := by
  have hBefore := (start_spec hData hIndex hStart).run session.before
  have hUpholds :=
    (attach_spec hData hIndex hBefore hAttach).run session.after
  generalize attached.run session.after = course
    at hOpened hUpholds
  rcases hUpholds.keeps with ⟨segments, hStands, hKept⟩
  rcases hStands.outlet.holds with ⟨_, hHolds, _⟩
  have hCall :
      Call.reset.action.perform (course.writer, course.world) =
        (.ok (),
          { course.writer with
            regrouper := course.writer.regrouper.reset
            stage :=
              if course.writer.stage = .finished then
                .headerDue
              else
                course.writer.stage },
          course.world) :=
    rfl
  have hStep := Course.step_eq hCall
  have hLength :=
    course.writer.regrouper.held.size_eq_length
  have hLeft :
      (course.step .reset).kept = Segment.contents segments := by
    rw [hStep]
    change
      course.kept.take
          (course.kept.length -
            FrameWriter.pending course.writer) ++ [] = _
    have hPending :
        FrameWriter.pending course.writer =
          course.writer.regrouper.held.toBytes.length :=
      hLength
    rw [← hKept, hPending, List.length_append,
      Nat.add_sub_cancel, List.take_left, List.append_nil]
  refine
    { log := by rw [hStep]
      world := by rw [hStep]
      outlet := by rw [hStep]
      stage := ?_
      pending := by rw [hStep]; rfl
      dropped :=
        ⟨segments, course.writer.regrouper.held.toBytes,
          hHolds.data.contents, hLeft, ?_, hLength.symm⟩ }
  · rw [hStep]
    simp [hOpened]
  · rw [hLeft, hKept]

/-
  Over sinks that never fail, a reset after a finish makes a
  writer as good as a fresh one, as long as the codec has
  written what it reports; and in an open member, a reset
  drops what is pending.
-/
theorem renews_and_drops
    (session : WriterSession)
    (hData : session.data.Reliable)
    (hIndex : session.index.Reliable) :
    (session.codec.WritesReported →
      ∀ course, session.play = .ok course →
        session.Renews course) ∧
    ∀ opened attached,
      session.start = .ok opened →
      session.attach (opened.run session.before) =
        .ok attached →
      (attached.run session.after).writer.stage = .opened →
        Drops (attached.run session.after) := by
  constructor
  · intro hReported course hPlay
    exact renews hData hIndex hReported hPlay
  · intro opened attached hStart hAttach hOpened
    exact drops hData.1 hIndex hStart hAttach hOpened

/-
  A member of two runs, and a further block before the reset
  that is dropped by a reset of its own.
-/
def resetMembers : WriterSession where
  codec := .runLength
  options :=
    { WriterOptions.standard with blockSize := 4 }
  clock := 0
  data := .willing
  index := .willing
  before := []
  indexed := true
  after := [.write [7, 7, 7, 7, 8], .reset, .write [9, 9]]
  ending := .finish

theorem renews_and_drops_of_resetMembers :
    ∃ course opened attached,
      resetMembers.play = .ok course ∧
      FrameWriter.frames course.writer = 2 ∧
      resetMembers.Renews course ∧
      resetMembers.start = .ok opened ∧
      resetMembers.attach (opened.run resetMembers.before) =
        .ok attached ∧
      FrameWriter.pending
          (attached.run resetMembers.after).writer =
        2 ∧
      Drops (attached.run resetMembers.after) := by
  have hEnd :
      resetMembers.play.map
          (fun course => FrameWriter.frames course.writer) =
        .ok 2 := by
    cbv
  have hView :
      (do
        let opened ← resetMembers.start
        let attached ←
          resetMembers.attach (opened.run resetMembers.before)
        return attached).map
          (fun attached : Course ContainerWriter SinkPair =>
            let course := attached.run resetMembers.after
            (FrameWriter.pending course.writer,
              course.writer.stage)) =
        .ok (2, MemberStage.opened) := by
    cbv
  have hReported : resetMembers.codec.WritesReported :=
    Codec.writesReported_of_honest fun _ block room =>
      RunLength.compress_honest block room
  rcases play_of_map hEnd with ⟨course, hPlay, hFrames⟩
  rcases renews_and_drops resetMembers Conduct.reliable_willing
    Conduct.reliable_willing with ⟨hRenews, hDrops⟩
  rcases parts_of_play hPlay with
    ⟨opened, attached, hStart, hAttach, _⟩
  rw [hStart] at hView
  dsimp only [bind, Except.bind] at hView
  rw [hAttach] at hView
  rcases Prod.mk.inj (Except.ok.inj hView) with
    ⟨hPending, hOpened⟩
  exact
    ⟨course, opened, attached, hPlay, hFrames,
      hRenews hReported course hPlay, hStart, hAttach, hPending,
      hDrops opened attached hStart hAttach hOpened⟩

/-
  A codec that reports two bytes more than it has written,
  and a block that it has packed to four.
-/
def overstated : WriterSession where
  codec := Codec.runLength.overstating 2
  options :=
    { WriterOptions.standard with blockSize := 8 }
  clock := 0
  data := .willing
  index := .willing
  before := []
  indexed := false
  after := [.write [97, 97, 97, 97, 98, 98, 98, 98]]
  ending := .finish

/- What a last finish comes to, and the bytes of a payload. -/
def concluded
    (calls : List Call)
    (position : Nat)
    (state : ContainerWriter SinkPair × SinkPair) :
    Except Error Nat × Bytes :=
  let last :=
    FrameWriter.finish.perform
      (FrameWriter.replies calls state).2
  (last.1, (last.2.2.data.contents.drop position).take 4)

/-
  What the codec has not written is what an earlier block has
  left in the buffer: the next block is packed in another way
  than by a fresh writer.
-/
theorem not_renews :
    ∃ course,
      overstated.data.Reliable ∧
      overstated.index.Reliable ∧
      overstated.codec.Steady ∧
      overstated.play = .ok course ∧
      ¬ overstated.Renews course := by
  have hUsed :
      overstated.play.map
          (fun course =>
            (course.world.data.contents.length,
              course.writer.regrouper.attempts,
              concluded [.write (List.replicate 8 97)] 118
                (FrameWriter.reset.perform
                  (course.writer, course.world)).2)) =
        .ok (64, 1, .ok 2, [8, 97, 4, 98]) := by
    cbv
  have hFresh :
      (do
        let opened ←
          (overstated.afresh 1 .willing .willing).start
        (overstated.afresh 1 .willing .willing).attach
          opened).map
          (fun started : Course ContainerWriter SinkPair =>
            concluded [.write (List.replicate 8 97)] 54
              (started.writer, started.world)) =
        .ok (.ok 1, [8, 97, 0, 0]) := by
    cbv
  rcases play_of_map hUsed with ⟨course, hPlay, hView⟩
  simp only [Prod.mk.injEq] at hView
  rcases hView with ⟨hLength, hAttempts, hEnded⟩
  refine
    ⟨course, Conduct.reliable_willing, Conduct.reliable_willing,
      fun _ _ _ _ => rfl, hPlay, ?_⟩
  intro hRenews
  rcases hRenews .willing .willing Conduct.reliable_willing
    Conduct.reliable_willing with
    ⟨used, opened, started, hReset, hStart, hAttach, hCalls⟩
  rw [hAttempts] at hStart hAttach
  rw [hStart] at hFresh
  dsimp only [bind, Except.bind] at hFresh
  rw [hAttach] at hFresh
  rw [hReset] at hEnded
  rcases Prod.mk.inj hEnded with ⟨hFinish, hPayload⟩
  rcases (hCalls [.write (List.replicate 8 97)]).2 2 _
    (Prod.ext hFinish rfl) with
    ⟨m, last, hLast, _, hAppended⟩
  rcases Prod.mk.inj (Except.ok.inj hFresh) with ⟨_, hOther⟩
  dsimp only at hPayload hOther
  rw [hLast] at hOther
  have hBehind : course.world.data.contents.drop 118 = [] :=
    List.drop_eq_nil_of_le (by omega)
  rw [hAppended.data, List.drop_append, hLength, hBehind,
    List.nil_append] at hPayload
  have hSame : [8, 97, 4, 98] = ([8, 97, 0, 0] : Bytes) :=
    hPayload.symm.trans hOther
  contradiction

end WriterSession

end SplitStream
