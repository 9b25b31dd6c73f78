import Mathlib
import SplitStream.Codec.RunLength
import SplitStream.Proofs.Writer.Capturing
import SplitStream.Proofs.Writer.Severing

/-
  Sessions over sinks that may fail. A writer has always
  counted the bytes that its sink has taken. Up to the first
  failure of the sink, also in the call that comes to it, the
  sink has the first of the bytes that it would have if it
  never failed. The frames that are counted are those that
  are whole, and what an index that never fails has recorded
  are their positions, and that of a frame that was cut off.

  Main declarations:
    * `Passage`
    * `Laying.Honest`
    * `FrameWriter.LeavesPrefix`
    * `FrameWriter.leavesPrefix_of_lagging`
    * `honest_prefixes`
-/

------------------------------------------------------------
-- Passages
------------------------------------------------------------

namespace SplitStream

/- Calls, between which an index may be attached. -/
structure Passage where
  before : List Call
  indexed : Bool
  after : List Call

section Passages

variable {W : Type → Type} [FrameWriter W]

/- The point that a writer comes to by all of the calls. -/
def Passage.reach
    (passage : Passage)
    (opened : Course W WatchedSinks) :
    Except Error (Course W WatchedSinks) := do
  let paused := opened.run passage.before
  let attached ←
    if passage.indexed then
      paused.attach WatchedSinks.indexChannel
    else
      pure paused
  return attached.run passage.after

/- The outlet of a writer beside its sinks. -/
def FrameWriter.side
    (state : W WatchedSinks × WatchedSinks) :
    Outlet WatchedSinks × WatchedSinks :=
  (outlet state.1, state.2)

/- The outlet of the writer of a course beside its sinks. -/
def Course.side
    (course : Course W WatchedSinks) :
    Outlet WatchedSinks × WatchedSinks :=
  FrameWriter.side (course.writer, course.world)

end Passages

------------------------------------------------------------
-- Honest Prefixes
------------------------------------------------------------

/-
  What an outlet and its sinks have come to, beside the same
  before a sink that never fails: the bytes of the one are a
  prefix of those of the other. Of the parts of the other,
  some are whole, and these are the ones that are counted.
-/
structure Laying.Honest
    {P : Type}
    (laying : Laying P)
    (index : Conduct)
    (captured : Bool)
    (left right : Outlet WatchedSinks × WatchedSinks) :
    Prop where
  written : left.1.written = left.2.data.contents.length
  data : left.2.data.contents <+: right.2.data.contents
  severed :
    ∃ whole later,
      laying.Severed index captured whole later left ∧
      right.2.data.contents = laying.layout (whole ++ later) ∧
      right.1.frames = laying.frames (whole ++ later)

namespace FrameWriter

variable {W : Type → Type} [FrameWriter W] {P : Type}

/-
  A writer has always counted what its sink has taken. As long
  as the sink has not failed, and after one more call or the
  last one, what it has is honest; a call in which it fails
  tells so.
-/
structure LeavesPrefix
    (laying : Laying P)
    (index : Conduct)
    (opened ideal : Course W WatchedSinks) : Prop where
  counts :
    ∀ (passage : Passage) course,
      passage.reach opened = .ok course →
        written course.writer =
          course.world.data.contents.length
  honest :
    ∀ (passage : Passage) course,
      passage.reach opened = .ok course →
      course.world.failed = false →
        ∃ other,
          passage.reach ideal = .ok other ∧
          other.log = course.log ∧
          laying.Honest index passage.indexed course.side
            other.side ∧
          (∀ call,
            laying.Honest index passage.indexed
              (course.step call).side (other.step call).side) ∧
          ∀ ending : Ending,
            laying.Honest index passage.indexed
              (side
                (ending.action.final
                  (course.writer, course.world)))
              (side
                (ending.action.final
                  (other.writer, other.world)))
  tells :
    ∀ (passage : Passage) course,
      passage.reach opened = .ok course →
      course.world.failed = false →
        ∀ call,
          (course.step call).world.failed = true →
            ∃ e,
              e.isIo = true ∧
              (course.step call).log =
                course.log ++ [(call, .error e)]

/- A writer goes on counting what its sink takes. -/
abbrev KeepsCount
    (W : Type → Type)
    [FrameWriter W]
    (conduct : Conduct) : Prop :=
  ∀ known origin,
    Lagging W (fun _ => False) (fun _ _ => False)
      (fun _ => WatchedSinks.Counted conduct known) origin

/- A writer whose sink fails falls behind that of another. -/
abbrev FallsBehind
    (W : Type → Type)
    [FrameWriter W]
    (laying : Laying P)
    {ideal : Conduct}
    (conduct : Conduct)
    (hIdeal : ideal.Reliable)
    (index : Conduct)
    (captured : Bool)
    (origin : Regrouper) : Prop :=
  Lagging W (Error.isIo · = true)
    (laying.Alike conduct hIdeal index captured)
    (laying.Behind ideal index captured) origin

/- An index is attached to the outlet, and to nothing else. -/
def AttachesOutlet
    (W : Type → Type)
    [FrameWriter W] : Prop :=
  ∀ (writer attached : W WatchedSinks)
    (channel : Channel WatchedSinks),
    attach writer channel = .ok attached →
      (outlet writer).attach channel = .ok (outlet attached) ∧
        regrouper attached = regrouper writer

variable
  {laying : Laying P} {conduct ideal index : Conduct}
  {hIdeal : ideal.Reliable} {captured known : Bool}
  {origin : Regrouper} {opened other : Course W WatchedSinks}
  {passage : Passage}

------------------------------------------------------------
-- Reaching Points
------------------------------------------------------------

/- What is reached depends on the writer at the attachment. -/
theorem parts_of_reach
    {course : Course W WatchedSinks}
    (hReach : passage.reach opened = .ok course) :
    ∃ writer,
      course =
        ({ opened.run passage.before with
            writer := writer } : Course W WatchedSinks).run
          passage.after ∧
      ((passage.indexed = false ∧
          writer = (opened.run passage.before).writer) ∨
        (passage.indexed = true ∧
          attach (opened.run passage.before).writer
              WatchedSinks.indexChannel =
            .ok writer)) ∧
      ∀ other : Course W WatchedSinks,
        (other.run passage.before).writer =
          (opened.run passage.before).writer →
        passage.reach other =
          .ok
            (({ other.run passage.before with
                writer := writer } : Course W WatchedSinks).run
              passage.after) := by
  unfold Passage.reach at hReach ⊢
  unfold Course.attach at hReach ⊢
  by_cases hIndexed : passage.indexed = true
  · simp only [hIndexed, if_true] at hReach ⊢
    cases hWriter :
        attach (opened.run passage.before).writer
          WatchedSinks.indexChannel with
    | error e =>
      rw [hWriter] at hReach
      cases hReach
    | ok writer =>
      rw [hWriter] at hReach
      cases hReach
      refine ⟨writer, rfl, .inr ⟨trivial, rfl⟩, ?_⟩
      intro other hSame
      rw [hSame, hWriter]
      rfl
  · have hPlain := Bool.eq_false_iff.mpr hIndexed
    simp only [hPlain] at hReach ⊢
    cases hReach
    refine
      ⟨(opened.run passage.before).writer, rfl,
        .inl ⟨trivial, rfl⟩, ?_⟩
    intro other hSame
    rw [← hSame]
    rfl

theorem counted_run
    (hCounting : KeepsCount W conduct)
    (course : Course W WatchedSinks)
    (calls : List Call)
    (hCounted : WatchedSinks.Counted conduct known course.side) :
    WatchedSinks.Counted conduct known
      (course.run calls).side := by
  have hAhead :
      Ahead (regrouper course.writer)
        (fun _ => WatchedSinks.Counted conduct known)
        (course.writer, course.world)
        (course.writer, course.world) :=
    ⟨⟨rfl, rfl⟩, hCounted⟩
  exact ((hCounting known _).ahead_run course calls hAhead).2

/- A sink that has not failed had not failed before. -/
theorem calm_of_run
    (hCounting : KeepsCount W conduct)
    {course : Course W WatchedSinks}
    {calls : List Call}
    (hCounted : WatchedSinks.Counted conduct false course.side)
    (hCalm : (course.run calls).world.failed = false) :
    course.world.failed = false := by
  cases hFailed : course.world.failed with
  | false => rfl
  | true =>
    have hKnown : WatchedSinks.Counted conduct true course.side :=
      { hCounted with failed := fun _ => hFailed }
    have hStill :=
      (counted_run hCounting course calls hKnown).failed rfl
    cases hCalm.symm.trans hStill

theorem counted_of_reach
    (hCounting : KeepsCount W conduct)
    (hAttaches : AttachesOutlet W)
    (hCounted : WatchedSinks.Counted conduct false opened.side)
    {course : Course W WatchedSinks}
    (hReach : passage.reach opened = .ok course) :
    WatchedSinks.Counted conduct false course.side := by
  have hBefore :=
    counted_run hCounting opened passage.before hCounted
  rcases parts_of_reach hReach with
    ⟨writer, rfl, ⟨_, rfl⟩ | ⟨_, hAttach⟩, _⟩
  · exact counted_run hCounting _ passage.after hBefore
  · apply counted_run hCounting _ passage.after
    exact hBefore.attach (hAttaches _ _ _ hAttach).1

/-
  As long as a sink has not failed, a writer comes to the same
  before a sink that never fails.
-/
theorem alongside_of_run
    (hCounting : KeepsCount W conduct)
    (hLagging :
      FallsBehind W laying conduct hIdeal index captured origin)
    {left right : Course W WatchedSinks}
    (calls : List Call)
    (hCounted : WatchedSinks.Counted conduct false left.side)
    (hCalm : (left.run calls).world.failed = false)
    (hLog : left.log = right.log)
    (hAlong :
      Alongside origin
        (laying.Alike conduct hIdeal index captured)
        (left.writer, left.world) (right.writer, right.world)) :
    (left.run calls).log = (right.run calls).log ∧
      Alongside origin
        (laying.Alike conduct hIdeal index captured)
        ((left.run calls).writer, (left.run calls).world)
        ((right.run calls).writer, (right.run calls).world) := by
  induction calls generalizing left right with
  | nil => exact ⟨hLog, hAlong⟩
  | cons call calls ih =>
    have hStepped :
        WatchedSinks.Counted conduct false
          (left.step call).side :=
      counted_run hCounting left [call] hCounted
    have hStill : (left.step call).world.failed = false :=
      calm_of_run hCounting hStepped hCalm
    rcases (hLagging.call call).along _ _ hAlong with
      ⟨result, ⟨writer, world⟩, ⟨other, next⟩, hLeft, hRight,
        hNext⟩ |
        ⟨e, ⟨writer, world⟩, hLeft, _, _, hFailed, _⟩
    · have hStep := Course.step_eq hLeft
      have hOther := Course.step_eq hRight
      apply ih hStepped hCalm
      · rw [hStep, hOther, hLog]
      · rw [hStep, hOther]
        exact hNext
    · rw [Course.step_eq hLeft] at hStill
      cases hStill.symm.trans hFailed

theorem alongside_of_reach
    (hCounting : KeepsCount W conduct)
    (hLagging :
      ∀ captured,
        FallsBehind W laying conduct hIdeal index captured
          origin)
    (hAttaches : AttachesOutlet W)
    (hCounted : WatchedSinks.Counted conduct false opened.side)
    (hLog : opened.log = other.log)
    (hAlong :
      Alongside origin
        (laying.Alike conduct hIdeal index false)
        (opened.writer, opened.world)
        (other.writer, other.world))
    {course : Course W WatchedSinks}
    (hReach : passage.reach opened = .ok course)
    (hCalm : course.world.failed = false) :
    ∃ course',
      passage.reach other = .ok course' ∧
      course.log = course'.log ∧
      Alongside origin
        (laying.Alike conduct hIdeal index passage.indexed)
        (course.writer, course.world)
        (course'.writer, course'.world) := by
  have hBefore :=
    counted_run hCounting opened passage.before hCounted
  rcases parts_of_reach hReach with
    ⟨writer, rfl, hWriter, hOther⟩
  let paused : Course W WatchedSinks :=
    { opened.run passage.before with writer := writer }
  let beside : Course W WatchedSinks :=
    { other.run passage.before with writer := writer }
  have hPaused :
      WatchedSinks.Counted conduct false paused.side := by
    rcases hWriter with ⟨_, rfl⟩ | ⟨_, hAttach⟩
    · exact hBefore
    · exact hBefore.attach (hAttaches _ _ _ hAttach).1
  have hStill : paused.world.failed = false :=
    calm_of_run hCounting hPaused hCalm
  rcases alongside_of_run hCounting (hLagging false)
    passage.before hCounted hStill hLog hAlong with
    ⟨hLogs, hWriters, hKin, parts, hLevel⟩
  dsimp only at hWriters hKin hLevel
  rw [← hWriters] at hLevel
  refine
    ⟨beside.run passage.after, hOther other hWriters.symm, ?_⟩
  have hLogs' : paused.log = beside.log := hLogs
  apply alongside_of_run hCounting (hLagging passage.indexed)
    passage.after hPaused hCalm hLogs'
  rcases hWriter with ⟨hPlain, rfl⟩ | ⟨hIndexed, hAttach⟩
  · rw [hPlain]
    exact ⟨rfl, hKin, parts, hLevel⟩
  · rcases hAttaches _ _ _ hAttach with ⟨hOutlet, hSame⟩
    rw [hIndexed]
    refine ⟨rfl, ?_, parts, hLevel.attach hOutlet⟩
    rw [hSame]
    exact hKin

------------------------------------------------------------
-- Honest Writers
------------------------------------------------------------

/- What is severed is honest beside what is laid out. -/
theorem honest_of_severed
    {whole later : List P}
    {left right : Outlet WatchedSinks × WatchedSinks}
    (hCounted : WatchedSinks.Counted conduct false left)
    (hSevered :
      laying.Severed index captured whole later left)
    (hLaid : laying.LaidOut ideal (whole ++ later) right) :
    laying.Honest index captured left right := by
  rcases hSevered.remains with ⟨recorded, hRemains, _⟩
  have hPrefix := hRemains.prefix_layout
  rw [← hLaid.contents] at hPrefix
  exact
    ⟨hCounted.written, hPrefix, whole, later, hSevered,
      hLaid.contents, hLaid.frames⟩

/- As long as both are alike, nothing is missing. -/
theorem honest_of_alongside
    {left right : W WatchedSinks × WatchedSinks}
    (hCounted : WatchedSinks.Counted conduct false (side left))
    (hAlong :
      Alongside origin
        (laying.Alike conduct hIdeal index captured) left
        right) :
    laying.Honest index captured (side left) (side right) := by
  rcases hAlong with ⟨_, _, parts, hLevel⟩
  have hLaid := hLevel.laid
  rw [← List.append_nil parts] at hLaid
  exact honest_of_severed hCounted hLevel.severed hLaid

/- One more action leaves an honest prefix. -/
theorem honest_of_lags
    {α : Type}
    {action : Action (W WatchedSinks × WatchedSinks) α}
    {left right : W WatchedSinks × WatchedSinks}
    (hCounting :
      LagsLike (fun _ => False) (fun _ _ => False)
        (fun _ => WatchedSinks.Counted conduct false) origin
        action)
    (hLags :
      LagsLike (Error.isIo · = true)
        (laying.Alike conduct hIdeal index captured)
        (laying.Behind ideal index captured) origin action)
    (hCounted : WatchedSinks.Counted conduct false (side left))
    (hAlong :
      Alongside origin
        (laying.Alike conduct hIdeal index captured) left
        right) :
    laying.Honest index captured (side (action.final left))
      (side (action.final right)) := by
  have hKin : origin.Kin (regrouper left.1) := hAlong.2.1
  have hCounted' :
      WatchedSinks.Counted conduct false
        (side (action.final left)) :=
    (hCounting.behind left left ⟨hKin, hCounted⟩).2
  unfold Step.final at hCounted' ⊢
  rcases hLags.along left right hAlong with
    ⟨result, s, t, hLeft, hRight, hBoth⟩ |
      ⟨e, s, hLeft, _, _, _, whole, later, hSevered, hLaid⟩
  · rw [hLeft] at hCounted' ⊢
    rw [hRight]
    exact honest_of_alongside hCounted' hBoth
  · rw [hLeft] at hCounted' ⊢
    exact honest_of_severed hCounted' hSevered hLaid

/- A call in which the sink fails is not a success. -/
theorem told_of_failed
    {call : Call}
    (hLags :
      LagsLike (Error.isIo · = true)
        (laying.Alike conduct hIdeal index captured)
        (laying.Behind ideal index captured) origin
        (call.action :
          Action (W WatchedSinks × WatchedSinks) Unit))
    (hAlong :
      Alongside origin
        (laying.Alike conduct hIdeal index captured)
        (opened.writer, opened.world)
        (other.writer, other.world))
    (hFailed : (opened.step call).world.failed = true) :
    ∃ e,
      e.isIo = true ∧
      (opened.step call).log =
        opened.log ++ [(call, .error e)] := by
  rcases hLags.along _ _ hAlong with
    ⟨result, s, t, hLeft, _, _, _, _, hLevel⟩ |
      ⟨e, s, hLeft, hIo, _⟩
  · rw [Course.step_eq hLeft] at hFailed
    cases hFailed.symm.trans hLevel.calm
  · refine ⟨e, hIo, ?_⟩
    rw [Course.step_eq hLeft]

/-
  A writer leaves an honest prefix if its calls go on counting
  and lag.
-/
theorem leavesPrefix_of_lagging
    (hCounting : KeepsCount W conduct)
    (hLagging :
      ∀ captured,
        FallsBehind W laying conduct hIdeal index captured
          origin)
    (hAttaches : AttachesOutlet W)
    (hCounted : WatchedSinks.Counted conduct false opened.side)
    (hLog : opened.log = other.log)
    (hAlong :
      Alongside origin
        (laying.Alike conduct hIdeal index false)
        (opened.writer, opened.world)
        (other.writer, other.world)) :
    LeavesPrefix laying index opened other where
  counts := by
    intro passage course hReach
    exact
      (counted_of_reach hCounting hAttaches hCounted
        hReach).written
  honest := by
    intro passage course hReach hCalm
    have hCounted' :=
      counted_of_reach hCounting hAttaches hCounted hReach
    rcases alongside_of_reach hCounting hLagging hAttaches
      hCounted hLog hAlong hReach hCalm with
      ⟨course', hReach', hLogs, hBoth⟩
    refine
      ⟨course', hReach', hLogs.symm,
        honest_of_alongside hCounted' hBoth, ?_, ?_⟩
    · intro call
      exact
        honest_of_lags ((hCounting false origin).call call)
          ((hLagging passage.indexed).call call) hCounted' hBoth
    · intro ending
      exact
        honest_of_lags ((hCounting false origin).ending ending)
          ((hLagging passage.indexed).ending ending) hCounted'
          hBoth
  tells := by
    intro passage course hReach hCalm call hFailed
    rcases alongside_of_reach hCounting hLagging hAttaches
      hCounted hLog hAlong hReach hCalm with ⟨_, _, _, hBoth⟩
    exact
      told_of_failed ((hLagging passage.indexed).call call) hBoth
        hFailed

end FrameWriter

------------------------------------------------------------
-- Both Kinds
------------------------------------------------------------

theorem ContainerWriter.attachesOutlet :
    FrameWriter.AttachesOutlet ContainerWriter := by
  intro writer attached channel hAttach
  rcases outlet_of_attach hAttach with ⟨outlet, hOutlet, rfl⟩
  exact ⟨hOutlet, rfl⟩

theorem RawWriter.attachesOutlet :
    FrameWriter.AttachesOutlet RawWriter := by
  intro writer attached channel hAttach
  rcases outlet_of_attach hAttach with ⟨outlet, hOutlet, rfl⟩
  exact ⟨hOutlet, rfl⟩

/- Before the first bytes, nothing has been counted. -/
theorem WatchedSinks.counted_new
    (conduct index : Conduct) :
    WatchedSinks.Counted conduct false
      (.new WatchedSinks.dataChannel, .empty conduct index) where
  channel := rfl
  capture := fun _ hNever => nomatch hNever
  conduct := rfl
  written := rfl
  failed := fun hNever => nomatch hNever

/- Before the first bytes, two outlets are level. -/
theorem Laying.level_new
    {P : Type}
    (laying : Laying P)
    (conduct : Conduct)
    {ideal : Conduct}
    (hIdeal : ideal.Reliable)
    (index : Conduct) :
    laying.Alike conduct hIdeal index false
      (.new WatchedSinks.dataChannel, .empty conduct index)
      (.new WatchedSinks.dataChannel, .empty ideal index) := by
  refine ⟨[], rfl, rfl, ⟨rfl, rfl⟩, rfl, rfl, ?_, ?_⟩
  · exact ⟨WatchedSinks.counted_new ideal index, rfl, rfl⟩
  · intro hIndex
    have hHolds :
        (WatchedSinks.receivers hIdeal.1 hIndex).Holds
          (.empty ideal index) [] [] :=
      ⟨⟨rfl, rfl⟩, ⟨rfl, rfl⟩⟩
    exact Outlet.Carries.new hHolds

variable {data ideal : Conduct}

namespace ContainerWriter

/-
  Before both sinks the same writer is made, or the first
  header is cut off before one of them.
-/
theorem new_cases
    (hData : data.Truthful)
    (hIdeal : ideal.Reliable)
    (index : Conduct)
    (codec : Codec)
    (options : WriterOptions)
    (clock : UInt32) :
    let make := new WatchedSinks.dataChannel codec options clock
    (∃ writer sinks others,
      make.perform (.empty data index) = (.ok writer, sinks) ∧
      make.perform (.empty ideal index) =
        (.ok writer, others) ∧
      Segment.laying.Alike data hIdeal index false
        (writer.outlet, sinks) (writer.outlet, others)) ∨
    ∃ e sinks,
      make.perform (.empty data index) = (.error e, sinks) ∧
      sinks.data.contents <+:
        (make.final (.empty ideal index)).data.contents := by
  intro make
  cases hRegrouper : Regrouper.new codec options.blockSize with
  | error e =>
    right
    exact
      ⟨e, .empty data index,
        perform_new_of_refused hRegrouper _ clock _,
        List.nil_prefix⟩
  | ok regrouper =>
    have hMake :=
      perform_new_of_regrouper hRegrouper WatchedSinks.dataChannel
        clock
    unfold Step.final
    simp only [make, hMake]
    rcases (Segment.lags_putHeader hData hIdeal index
      (headerOf codec options clock)).along _ _
      (Segment.laying.level_new data hIdeal index) with
      ⟨result, ⟨outlet, sinks⟩, ⟨other, others⟩, hLeft, hRight,
        hAlike⟩ |
        ⟨e, ⟨outlet, sinks⟩, hLeft, _, _, whole, later, hSevered,
          hLaid⟩
    · rcases hAlike with ⟨parts, hLevel⟩
      have hOutlet : outlet = other := hLevel.outlet
      subst hOutlet
      rw [hLeft, hRight]
      cases result with
      | error e =>
        right
        refine ⟨e, sinks, rfl, ?_⟩
        exact hLevel.data.contents ▸ List.prefix_rfl
      | ok n =>
        left
        exact ⟨_, sinks, others, rfl, rfl, parts, hLevel⟩
    · rw [hLeft]
      right
      refine ⟨e, sinks, rfl, ?_⟩
      rcases hSevered.remains with ⟨recorded, hRemains, _⟩
      have hPrefix := hRemains.prefix_layout
      rw [← hLaid.contents] at hPrefix
      exact hPrefix

/- A writer that was made has counted its first header. -/
theorem counted_of_new
    (hData : data.Truthful)
    {codec : Codec}
    {options : WriterOptions}
    {clock : UInt32}
    {writer : ContainerWriter WatchedSinks}
    {sinks : WatchedSinks}
    (hNew :
      (new WatchedSinks.dataChannel codec options clock).perform
          (.empty data index) =
        (.ok writer, sinks)) :
    WatchedSinks.Counted data false (writer.outlet, sinks) := by
  rcases parts_of_new hNew with
    ⟨length, outlet, _, hPut, hWriter⟩
  have hCounting :
      (Outlet.putHeader (headerOf codec options clock)).Lags
        (fun _ => False) (fun _ _ => False)
        (fun _ => WatchedSinks.Counted data false) :=
    (WatchedSinks.counting_puts hData).putHeader _
  have hNothing := WatchedSinks.counted_new data index
  have hCounted :=
    hCounting.behind
      (.new WatchedSinks.dataChannel, .empty data index) _
      hNothing
  unfold Step.final at hCounted
  rw [hPut] at hCounted
  rw [hWriter]
  exact hCounted

theorem leavesPrefix_of_alike
    (hData : data.Truthful)
    (hIdeal : ideal.Reliable)
    (index : Conduct)
    {writer : ContainerWriter WatchedSinks}
    {sinks others : WatchedSinks}
    (hCounted : WatchedSinks.Counted data false (writer.outlet, sinks))
    (hAlike :
      Segment.laying.Alike data hIdeal index false
        (writer.outlet, sinks) (writer.outlet, others)) :
    FrameWriter.LeavesPrefix Segment.laying index
      (.opened writer sinks) (.opened writer others) := by
  have hLagging (captured : Bool) :=
    lagging_severed hData hIdeal index captured writer.regrouper
  exact
    FrameWriter.leavesPrefix_of_lagging
      (fun known => lagging_counted hData known fun _ => False)
      hLagging
      attachesOutlet hCounted rfl ⟨rfl, ⟨rfl, rfl⟩, hAlike⟩

end ContainerWriter

theorem RawWriter.leavesPrefix_of_new
    (hData : data.Truthful)
    (hIdeal : ideal.Reliable)
    (index : Conduct)
    {codec : Codec}
    {blockSize : Nat}
    {writer : RawWriter WatchedSinks}
    (hNew :
      RawWriter.new WatchedSinks.dataChannel codec blockSize =
        .ok writer) :
    FrameWriter.LeavesPrefix RawStream.laying index
      (.opened writer (.empty data index))
      (.opened writer (.empty ideal index)) := by
  have hOutlet : writer.outlet = .new WatchedSinks.dataChannel := by
    rcases RawWriter.regrouper_of_new hNew with ⟨_, _, rfl⟩
    rfl
  have hCounted : WatchedSinks.Counted data false (writer.outlet, _) :=
    hOutlet ▸ WatchedSinks.counted_new data index
  have hAlike :
      RawStream.laying.Alike data hIdeal index false
        (writer.outlet, .empty data index)
        (writer.outlet, .empty ideal index) :=
    hOutlet ▸ RawStream.laying.level_new data hIdeal index
  have hLagging (captured : Bool) :=
    lagging_severed hData hIdeal index captured writer.regrouper
  exact
    FrameWriter.leavesPrefix_of_lagging
      (fun known => lagging_counted hData known fun _ => False)
      hLagging
      attachesOutlet hCounted rfl ⟨rfl, ⟨rfl, rfl⟩, hAlike⟩

/-
  Whatever a truthful sink takes and wherever it fails, it is
  left with an honest prefix, by writers of both kinds.
-/
theorem honest_prefixes
    (hData : data.Truthful)
    (hIdeal : ideal.Reliable)
    (index : Conduct)
    (codec : Codec)
    (options : WriterOptions)
    (clock : UInt32) :
    let make :=
      ContainerWriter.new WatchedSinks.dataChannel codec options
        clock
    (∀ e sinks,
      make.perform (.empty data index) = (.error e, sinks) →
        sinks.data.contents <+:
          (make.final (.empty ideal index)).data.contents) ∧
    (∀ writer sinks,
      make.perform (.empty data index) = (.ok writer, sinks) →
        sinks.failed = false ∧
        ∃ others,
          make.perform (.empty ideal index) =
            (.ok writer, others) ∧
          FrameWriter.LeavesPrefix Segment.laying index
            (.opened writer sinks) (.opened writer others)) ∧
    ∀ writer,
      RawWriter.new WatchedSinks.dataChannel codec
          options.blockSize =
        .ok writer →
      FrameWriter.LeavesPrefix RawStream.laying index
        (.opened writer (.empty data index))
        (.opened writer (.empty ideal index)) := by
  intro make
  have hCases :=
    ContainerWriter.new_cases hData hIdeal index codec options
      clock
  refine ⟨?_, ?_, ?_⟩
  · intro e sinks hNew
    rcases hCases with
      ⟨writer, sinks', _, hMade, _⟩ | ⟨e', sinks', hCut, hPrefix⟩
    · cases hMade.symm.trans hNew
    · cases hCut.symm.trans hNew
      exact hPrefix
  · intro writer sinks hNew
    have hCounted := ContainerWriter.counted_of_new hData hNew
    rcases hCases with
      ⟨writer', sinks', others, hMade, hOther, hAlike⟩ |
        ⟨e, sinks', hCut, _⟩
    · cases hMade.symm.trans hNew
      rcases hAlike with ⟨parts, hLevel⟩
      exact
        ⟨hLevel.calm, others, hOther,
          ContainerWriter.leavesPrefix_of_alike hData hIdeal
            index hCounted ⟨parts, hLevel⟩⟩
    · cases hCut.symm.trans hNew
  · intro writer hNew
    exact RawWriter.leavesPrefix_of_new hData hIdeal index hNew

/- Take a few bytes at a time, until a number of them is there. -/
def Conduct.filling
    (limit chunk : Nat) : Conduct where
  write := fun _ size offered =>
    if limit ≤ size then
      ⟨0, some .storageFull⟩
    else
      ⟨min offered (min chunk (limit - size)), none⟩
  flush := fun _ => none

theorem Conduct.truthful_filling
    (limit chunk : Nat) :
    (filling limit chunk).Truthful := by
  intro turn size offered _ hFailure
  unfold filling at hFailure ⊢
  dsimp only at hFailure ⊢
  by_cases hFull : limit ≤ size
  · rw [if_pos hFull]
  · rw [if_neg hFull] at hFailure
    contradiction

/- A writer of members with blocks of four bytes. -/
def smallBlocks :
    Action WatchedSinks (ContainerWriter WatchedSinks) :=
  ContainerWriter.new WatchedSinks.dataChannel .runLength
    { WriterOptions.standard with blockSize := 4 } 0

/-
  A sink is full behind the first frame of a member and some
  bytes of the next one, which is recorded but not counted.
-/
theorem honest_prefixes_of_filling :
    ∃ writer sinks others course,
      smallBlocks.perform (.empty (.filling 65 3) .willing) =
        (.ok writer, sinks) ∧
      smallBlocks.perform (.empty .willing .willing) =
        (.ok writer, others) ∧
      Passage.reach ⟨[], true, []⟩ (.opened writer sinks) =
        .ok course ∧
      course.world.failed = false ∧
      FrameWriter.LeavesPrefix Segment.laying .willing
        (.opened writer sinks) (.opened writer others) ∧
      let last := course.step (.write [7, 7, 7, 7, 8, 8, 8, 8])
      last.log.map Prod.snd = [.error (.io .storageFull)] ∧
      FrameWriter.written last.writer = 65 ∧
      FrameWriter.frames last.writer = 1 ∧
      last.writer.outlet.capture.map Capture.entries =
        some 2 := by
  let world : WatchedSinks := .empty (.filling 65 3) .willing
  have hView :
      ((smallBlocks.perform world).1.bind fun writer =>
        (Passage.reach ⟨[], true, []⟩
            (.opened writer (smallBlocks.perform world).2)).map
          fun course =>
            let last :=
              course.step (.write [7, 7, 7, 7, 8, 8, 8, 8])
            (course.world.failed, last.log.map Prod.snd,
              FrameWriter.written last.writer,
              FrameWriter.frames last.writer,
              last.writer.outlet.capture.map Capture.entries)) =
        .ok
          (false, [.error (.io .storageFull)], 65, 1, some 2) := by
    cbv
  rcases hMake : smallBlocks.perform world with
    ⟨e | writer, sinks⟩
  · rw [hMake] at hView
    cases hView
  · rw [hMake] at hView
    rcases ok_of_map hView with ⟨course, hReach, hSeen⟩
    simp only [Prod.mk.injEq] at hSeen
    rcases hSeen with
      ⟨hCalm, hFailed, hWritten, hFrames, hEntries⟩
    rcases (honest_prefixes (Conduct.truthful_filling 65 3)
      Conduct.reliable_willing .willing .runLength
      { WriterOptions.standard with blockSize := 4 }
      0).2.1 writer sinks hMake with ⟨_, others, hOther, hLeaves⟩
    exact
      ⟨writer, sinks, others, course, rfl, hOther, hReach, hCalm,
        hLeaves, hFailed, hWritten, hFrames, hEntries⟩

end SplitStream
