import Mathlib
import SplitStream.Codec.Stored
import SplitStream.Proofs.Writer.Mirroring
import SplitStream.Proofs.Writer.Sessions

/-
  Captured indexes and the data beside them. A writer with an
  index attached and the same writer without it go through
  the same calls, over any data channel. They agree up to the
  first frame that is to start where an earlier one, of which
  the channel took nothing, was to start: its offset has been
  recorded, and only the writer that captures refuses it.

  Main declarations:
    * `Channel.Serves`
    * `Course.Agrees`
    * `CapturesAside`
    * `Following`
    * `Following.Twins`
    * `captures_aside`
    * `captures_not_aside`
-/

------------------------------------------------------------
-- Two Worlds
------------------------------------------------------------

namespace SplitStream

variable {δ ι : Type}

namespace Channel

/- The channel takes something of each write, and flushes. -/
structure Serves
    (channel : Channel ι) : Prop where
  write :
    ∀ bs world,
      bs ≠ [] →
        ∃ n next, channel.write bs world = (.ok (n + 1), next)
  flush : ∀ world, ∃ next, channel.flush world = (.ok (), next)

/- A channel for data, beside a world for an index. -/
def forData
    (channel : Channel δ) : Channel (δ × ι) :=
  channel.through Prod.fst fun data world => (data, world.2)

/- A channel for an index, beside a world for data. -/
def forIndex
    (channel : Channel ι) : Channel (δ × ι) :=
  channel.through Prod.snd fun index world => (world.1, index)

/- Worlds with the same data. -/
def SameData
    (left right : δ × ι) : Prop :=
  left.1 = right.1

/- What is done to the data does not depend on the index. -/
theorem inStep_forData
    (channel : Channel δ) :
    (channel.forData (ι := ι)).InStep SameData fun _ => False := by
  constructor
  · rintro bs ⟨data, left⟩ ⟨_, right⟩ ⟨⟩
    left
    exact
      ⟨(channel.write bs data).1,
        ((channel.write bs data).2, left),
        ((channel.write bs data).2, right), rfl, rfl, rfl⟩
  · rintro ⟨data, left⟩ ⟨_, right⟩ ⟨⟩
    left
    exact
      ⟨(channel.flush data).1, ((channel.flush data).2, left),
        ((channel.flush data).2, right), rfl, rfl, rfl⟩

theorem Serves.unseen
    {channel : Channel ι}
    (h : channel.Serves) :
    (channel.forIndex (δ := δ)).Unseen SameData := by
  constructor
  · rintro bs ⟨data, left⟩ right hSome hSame
    rcases h.write bs left hSome with ⟨n, next, hWrite⟩
    refine ⟨n, (data, next), ?_, hSame⟩
    simp [forIndex, Channel.through, hWrite]
  · rintro ⟨data, left⟩ right hSame
    rcases h.flush left with ⟨next, hFlush⟩
    refine ⟨(data, next), ?_, hSame⟩
    simp [forIndex, Channel.through, hFlush]

end Channel

------------------------------------------------------------
-- Courses
------------------------------------------------------------

variable {ω : Type} {W : Type → Type} [FrameWriter W]

namespace Course

/- Every failure so far was orderly. -/
def Orderly
    (course : Course W ω) : Prop :=
  ∀ entry ∈ course.log,
    ∀ e, entry.2 = .error e → e.Orderly

/-
  Two courses have come to the same results and the same
  data, and their writers count the same.
-/
structure Agrees
    (left right : Course W (δ × ι)) : Prop where
  log : left.log = right.log
  data : left.world.1 = right.world.1
  written :
    FrameWriter.written left.writer =
      FrameWriter.written right.writer
  frames :
    FrameWriter.frames left.writer =
      FrameWriter.frames right.writer
  pending :
    FrameWriter.pending left.writer =
      FrameWriter.pending right.writer

/-
  A call fails since a frame is to start at the position that
  was recorded last.
-/
def BalksAt
    (course : Course W ω)
    (call : Call) : Prop :=
  let next := course.step call
  let position := FrameWriter.written next.writer
  next.log =
    course.log ++
      [(call, .error (.unorderedIndex position position))]

theorem Orderly.of_prefix
    {course : Course W ω}
    {front calls : List Call}
    (h : (course.run calls).Orderly)
    (hFront : front <+: calls) :
    (course.run front).Orderly := by
  rcases hFront with ⟨back, rfl⟩
  rw [run_append] at h
  intro entry hEntry
  exact
    h entry ((log_prefix_run (course.run front) back).subset
      hEntry)

end Course

/- A frame was refused at a position recorded before. -/
def FrameWriter.Balks
    (captured : Bool)
    (e : Error)
    (state : W ω × ω) : Prop :=
  captured = true ∧
  e =
    .unorderedIndex (written state.1) (written state.1)

/-
  Writers of a kind that capture follow those that do not, in
  every call, by a relation that holds between them. Writers
  that do not capture follow themselves.
-/
structure Following
    (Mirrored : Bool → W (δ × ι) × δ × ι → W (δ × ι) × δ × ι → Prop) :
    Prop where
  write :
    ∀ captured data,
      Step.Simulates Error.Orderly (Mirrored captured)
        (FrameWriter.Balks captured)
        (FrameWriter.write data) (FrameWriter.write data)
  flush :
    ∀ captured,
      Step.Simulates Error.Orderly (Mirrored captured)
        (FrameWriter.Balks captured)
        FrameWriter.flush FrameWriter.flush
  finish :
    ∀ captured,
      Step.Simulates Error.Orderly (Mirrored captured)
        (FrameWriter.Balks captured)
        FrameWriter.finish FrameWriter.finish
  reset :
    ∀ captured,
      Step.Simulates Error.Orderly (Mirrored captured)
        (FrameWriter.Balks captured)
        FrameWriter.reset FrameWriter.reset
  data :
    ∀ s t, Mirrored true s t → s.2.1 = t.2.1
  outlet :
    ∀ s t,
      Mirrored true s t →
        FrameWriter.written s.1 = FrameWriter.written t.1 ∧
        FrameWriter.frames s.1 = FrameWriter.frames t.1
  regrouper :
    ∀ s t,
      Mirrored true s t →
        FrameWriter.regrouper s.1 = FrameWriter.regrouper t.1

namespace Following

variable
  {Mirrored : Bool → W (δ × ι) × δ × ι → W (δ × ι) × δ × ι → Prop}

theorem call
    (h : Following Mirrored)
    (captured : Bool)
    (call : Call) :
    Step.Simulates Error.Orderly (Mirrored captured)
      (FrameWriter.Balks captured)
      (call.action (W := W)) call.action := by
  cases call with
  | write data => exact h.write captured data
  | writeRange buffer offset length =>
    apply Step.Simulates.bind _ fun _ => h.write captured _
    apply Step.simulates_ofExcept
    intro e hError
    unfold checkRange at hError
    split at hError
    · cases hError
    · cases hError
      exact Error.orderly_misuse _
  | flush => exact h.flush captured
  | finish =>
    exact (h.finish captured).bind fun _ => Step.simulates_pure ()
  | reset => exact h.reset captured

/- Two courses of which only the first one captures. -/
structure Twins
    (Mirrored : Bool → W (δ × ι) × δ × ι → W (δ × ι) × δ × ι → Prop)
    (left right : Course W (δ × ι)) : Prop where
  mirrored :
    Mirrored true (left.writer, left.world)
      (right.writer, right.world)
  log : left.log = right.log

theorem Twins.agrees
    {left right : Course W (δ × ι)}
    (h : Following Mirrored)
    (hTwins : Twins Mirrored left right) :
    left.Agrees right := by
  have hOutlet := h.outlet _ _ hTwins.mirrored
  have hRegrouper := h.regrouper _ _ hTwins.mirrored
  exact
    { log := hTwins.log
      data := h.data _ _ hTwins.mirrored
      written := hOutlet.1
      frames := hOutlet.2
      pending := congrArg Regrouper.pending hRegrouper }

/- A call keeps twins, or the one that captures balks at it. -/
theorem Twins.step
    {left right : Course W (δ × ι)}
    (h : Following Mirrored)
    (hTwins : Twins Mirrored left right)
    (call : Call) :
    Twins Mirrored (left.step call) (right.step call) ∨
      left.BalksAt call := by
  rcases h.call true call _ _ hTwins.mirrored with
    ⟨result, ⟨leftWriter, s⟩, ⟨rightWriter, t⟩, hLeft, hRight,
      hMirrored, _⟩ | ⟨e, ⟨leftWriter, s⟩, hLeft, _, rfl⟩
  · left
    rw [Course.step_eq hLeft, Course.step_eq hRight]
    exact ⟨hMirrored, by rw [hTwins.log]⟩
  · right
    unfold Course.BalksAt
    rw [Course.step_eq hLeft]

/- As long as nothing is out of order, twins stay twins. -/
theorem Twins.run
    {left right : Course W (δ × ι)}
    (h : Following Mirrored)
    (hTwins : Twins Mirrored left right)
    (calls : List Call)
    (hOrderly : (left.run calls).Orderly) :
    Twins Mirrored (left.run calls) (right.run calls) := by
  induction calls generalizing left right with
  | nil => exact hTwins
  | cons call calls ih =>
    rcases hTwins.step h call with hNext | hBalks
    · exact ih hNext hOrderly
    · let position :=
        FrameWriter.written (left.step call).writer
      have hEntry :
          (call, .error (.unorderedIndex position position)) ∈
            (left.step call).log := by
        unfold Course.BalksAt at hBalks
        rw [hBalks]
        exact List.mem_append_right _ (List.mem_singleton_self _)
      have hLater :=
        ((left.step call).log_prefix_run calls).subset hEntry
      have hUnordered :
          (Error.unorderedIndex position position).Unordered :=
        ⟨_, _, rfl⟩
      exact absurd hUnordered (hOrderly _ hLater _ rfl)

/- A writer that does not capture has orderly failures only. -/
theorem orderly_run
    {course : Course W (δ × ι)}
    (h : Following Mirrored)
    (hPlain :
      Mirrored false (course.writer, course.world)
        (course.writer, course.world))
    (hOrderly : course.Orderly)
    (calls : List Call) :
    (course.run calls).Orderly := by
  let Holds (course : Course W (δ × ι)) : Prop :=
    Mirrored false (course.writer, course.world)
        (course.writer, course.world) ∧
      course.Orderly
  have hStep :
      ∀ course,
        Holds course → ∀ call, Holds (course.step call) := by
    rintro course ⟨hSame, hBefore⟩ call
    rcases h.call false call _ _ hSame with
      ⟨result, ⟨writer, s⟩, ⟨_, _⟩, hLeft, hRight, hMirrored,
        hCommon⟩ | ⟨_, _, _, hNever, _⟩
    · cases hLeft.symm.trans hRight
      rw [Course.step_eq hLeft]
      refine ⟨hMirrored, ?_⟩
      intro entry hEntry
      rcases List.mem_append.mp hEntry with hOld | hNew
      · exact hBefore entry hOld
      · rw [List.mem_singleton.mp hNew]
        exact hCommon
    · cases hNever
  exact (Course.run_of_step hStep course calls
    ⟨hPlain, hOrderly⟩).2

end Following

/-
  What a writer of a kind does with data and results does not
  depend on an index being captured, until it balks: it does
  so at the first difference, and never if there is none.
-/
def CapturesAside
    (W : Type → Type)
    [FrameWriter W]
    (data : Channel δ)
    (index : Channel ι) : Prop :=
  ∀ (writer captured : W (δ × ι)) (world : δ × ι),
    (FrameWriter.outlet writer).channel = data.forData →
    (FrameWriter.outlet writer).capture = none →
    FrameWriter.attach writer index.forIndex = .ok captured →
      let left := (Course.opened captured world).run
      let right := (Course.opened writer world).run
      (∀ calls,
        (∀ front,
            front <+: calls →
              (left front).Agrees (right front)) ↔
          (left calls).Orderly) ∧
      ∀ front call,
        (∀ earlier,
            earlier <+: front →
              (left earlier).Agrees (right earlier)) →
          (left (front ++ [call])).Agrees
              (right (front ++ [call])) ∨
            (left front).BalksAt call

namespace Following

variable
  {Mirrored : Bool → W (δ × ι) × δ × ι → W (δ × ι) × δ × ι → Prop}
  {data : Channel δ} {index : Channel ι}

theorem aside
    (h : Following Mirrored)
    (hOpened :
      ∀ writer captured world,
        (FrameWriter.outlet writer).channel = data.forData →
        (FrameWriter.outlet writer).capture = none →
        FrameWriter.attach writer index.forIndex = .ok captured →
          Mirrored true (captured, world) (writer, world) ∧
          Mirrored false (writer, world) (writer, world)) :
    CapturesAside W data index := by
  intro writer captured world hChannel hPlain hAttach left right
  rcases hOpened writer captured world hChannel hPlain hAttach
    with ⟨hMirrored, hSame⟩
  have hTwins :
      Twins Mirrored (Course.opened captured world)
        (Course.opened writer world) :=
    ⟨hMirrored, rfl⟩
  have hNothing : (Course.opened writer world).Orderly := by
    intro entry hEntry
    cases hEntry
  have hRight :
      ∀ calls, (right calls).Orderly :=
    h.orderly_run hSame hNothing
  have hLeft :
      ∀ calls,
        (left calls).Agrees (right calls) →
          (left calls).Orderly := by
    intro calls hAgrees entry hEntry
    rw [hAgrees.log] at hEntry
    exact hRight calls entry hEntry
  constructor
  · intro calls
    constructor
    · intro hAgrees
      exact hLeft calls (hAgrees calls List.prefix_rfl)
    · intro hOrderly front hFront
      exact
        (hTwins.run h front (hOrderly.of_prefix hFront)).agrees h
  · intro front call hAgrees
    have hFront :=
      hTwins.run h front
        (hLeft front (hAgrees front List.prefix_rfl))
    have hStep :
        ∀ course : Course W (δ × ι),
          course.run (front ++ [call]) =
            (course.run front).step call := by
      intro course
      rw [Course.run_append]
      rfl
    rcases hFront.step h call with hNext | hBalks
    · left
      simp only [left, right, hStep]
      exact hNext.agrees h
    · right
      exact hBalks

end Following

------------------------------------------------------------
-- Both Kinds
------------------------------------------------------------

variable {data : Channel δ} {index : Channel ι}

/- An index is attached to an outlet that has none. -/
theorem Outlet.mirrors_attach
    {outlet captured : Outlet (δ × ι)}
    (hIndex : index.Serves)
    (hChannel : outlet.channel = data.forData)
    (hPlain : outlet.capture = none)
    (hAttach : outlet.attach index.forIndex = .ok captured) :
    captured.Mirrors Channel.SameData true outlet := by
  have hInStep :
      outlet.channel.InStep Channel.SameData fun _ => False := by
    rw [hChannel]
    exact Channel.inStep_forData data
  unfold attach at hAttach
  split at hAttach
  · cases hAttach
  · cases hAttach
    refine ⟨rfl, rfl, rfl, hPlain, hInStep, rfl, ?_⟩
    intro capture hCapture
    cases hCapture
    refine ⟨hIndex.unseen, ?_⟩
    intro last hLast
    cases hLast

/- An outlet without an index follows itself. -/
theorem Outlet.mirrors_self
    {outlet : Outlet (δ × ι)}
    (hChannel : outlet.channel = data.forData)
    (hPlain : outlet.capture = none) :
    outlet.Mirrors Channel.SameData false outlet := by
  have hInStep :
      outlet.channel.InStep Channel.SameData fun _ => False := by
    rw [hChannel]
    exact Channel.inStep_forData data
  refine ⟨rfl, rfl, rfl, hPlain, hInStep, by rw [hPlain]; rfl, ?_⟩
  intro capture hCapture
  rw [hPlain] at hCapture
  cases hCapture

theorem ContainerWriter.following :
    Following
      (ContainerWriter.Mirrored
        (Channel.SameData (δ := δ) (ι := ι))) where
  write := fun _ data => mirrors_write data
  flush := fun _ => mirrors_flush
  finish := fun _ => mirrors_finish
  reset := fun _ => mirrors_reset
  data := fun _ _ hMirrored => hMirrored.2
  outlet := fun _ _ hMirrored =>
    ⟨hMirrored.1.outlet.written, hMirrored.1.outlet.frames⟩
  regrouper := fun _ _ hMirrored => hMirrored.1.regrouper

theorem RawWriter.following :
    Following
      (RawWriter.Mirrored
        (Channel.SameData (δ := δ) (ι := ι))) where
  write := fun _ data => mirrors_write data
  flush := fun _ => mirrors_flush
  finish := fun _ => mirrors_finish
  reset := fun _ => mirrors_reset
  data := fun _ _ hMirrored => hMirrored.2
  outlet := fun _ _ hMirrored =>
    ⟨hMirrored.1.outlet.written, hMirrored.1.outlet.frames⟩
  regrouper := fun _ _ hMirrored => hMirrored.1.regrouper

/-
  Over any data channel, and an index channel that never
  fails, capturing changes nothing until a frame is to start
  where one was to start before.
-/
theorem captures_aside
    (data : Channel δ)
    (hIndex : index.Serves) :
    CapturesAside ContainerWriter data index ∧
    CapturesAside RawWriter data index := by
  constructor
  · apply ContainerWriter.following.aside
    intro writer captured world hChannel hPlain hAttach
    rcases ContainerWriter.outlet_of_attach hAttach with
      ⟨outlet, hOutlet, rfl⟩
    have hMirrors :=
      Outlet.mirrors_attach hIndex hChannel hPlain hOutlet
    have hSelf := Outlet.mirrors_self hChannel hPlain
    exact
      ⟨⟨⟨hMirrors, rfl, rfl, rfl, rfl⟩, rfl⟩,
        ⟨⟨hSelf, rfl, rfl, rfl, rfl⟩, rfl⟩⟩
  · apply RawWriter.following.aside
    intro writer captured world hChannel hPlain hAttach
    rcases RawWriter.outlet_of_attach hAttach with
      ⟨outlet, hOutlet, rfl⟩
    have hMirrors :=
      Outlet.mirrors_attach hIndex hChannel hPlain hOutlet
    have hSelf := Outlet.mirrors_self hChannel hPlain
    exact ⟨⟨⟨hMirrors, rfl⟩, rfl⟩, ⟨⟨hSelf, rfl⟩, rfl⟩⟩

------------------------------------------------------------
-- One Refused Write
------------------------------------------------------------

/- A channel that takes all bytes, and never fails. -/
def Channel.collecting : Channel Bytes where
  write := fun bs received => (.ok bs.length, received ++ bs)
  flush := fun received => (.ok (), received)

theorem Channel.serves_collecting :
    collecting.Serves where
  write := by
    intro bs received hSome
    rcases List.exists_cons_of_ne_nil hSome with ⟨b, rest, rfl⟩
    exact ⟨rest.length, received ++ b :: rest, rfl⟩
  flush := fun received => ⟨received, rfl⟩

/- Take everything, but refuse to take anything at one turn. -/
def Conduct.refusingAt
    (turn : Nat) : Conduct where
  write := fun now _ offered =>
    if now = turn then
      ⟨0, some .storageFull⟩
    else
      ⟨offered, none⟩
  flush := fun _ => none

/-
  Two blocks of one byte for a sink that refuses one write,
  with or without an index.
-/
def refusedCourse
    (turn : Nat)
    (writer : RawWriter (Sink × Bytes)) :
    Course RawWriter (Sink × Bytes) :=
  (Course.opened writer (.empty (.refusingAt turn), [])).run
    [.write [1], .write [2]]

/-
  A frame is refused behind its first word. The next one is
  to start behind that word, and all goes on alike.
-/
theorem captures_aside_of_torn :
    ∃ writer captured,
      RawWriter.new Sink.channel.forData .stored 1 = .ok writer ∧
      writer.attach Channel.collecting.forIndex = .ok captured ∧
      (refusedCourse 1 captured).log =
        [(.write [1], .error (.io .storageFull)),
          (.write [2], .ok ())] ∧
      ∀ front,
        front <+: [.write [1], .write [2]] →
          let world := (Sink.empty (.refusingAt 1), [])
          ((Course.opened captured world).run front).Agrees
            ((Course.opened writer world).run front) := by
  have hLog :
      ∃ writer captured,
        RawWriter.new Sink.channel.forData .stored 1 =
          .ok writer ∧
        writer.attach Channel.collecting.forIndex =
          .ok captured ∧
        (refusedCourse 1 captured).log =
          [(.write [1], .error (.io .storageFull)),
            (.write [2], .ok ())] ∧
        writer.outlet.channel = Sink.channel.forData ∧
        writer.outlet.capture = none := by
    refine ⟨_, _, rfl, rfl, ?_, rfl, rfl⟩
    cbv
  rcases hLog with
    ⟨writer, captured, hNew, hAttach, hLog, hChannel, hPlain⟩
  refine ⟨writer, captured, hNew, hAttach, hLog, ?_⟩
  rcases (captures_aside Sink.channel
    Channel.serves_collecting).2 writer captured
    (.empty (.refusingAt 1), []) hChannel hPlain hAttach with
    ⟨hAgrees, _⟩
  apply (hAgrees [.write [1], .write [2]]).mpr
  intro entry hEntry e hError
  change entry ∈ (refusedCourse 1 captured).log at hEntry
  rw [hLog] at hEntry
  simp only [List.mem_cons, List.not_mem_nil, or_false] at hEntry
  rcases hEntry with rfl | rfl
  · cases hError
    exact Error.orderly_io _
  · cases hError

/-
  A frame is refused as a whole. The next one is to start at
  the same position, and is taken without an index only.
-/
theorem captures_not_aside :
    ∃ writer captured,
      RawWriter.new Sink.channel.forData .stored 1 = .ok writer ∧
      writer.attach Channel.collecting.forIndex = .ok captured ∧
      (refusedCourse 0 captured).log =
        [(.write [1], .error (.io .storageFull)),
          (.write [2], .error (.unorderedIndex 0 0))] ∧
      (refusedCourse 0 writer).log =
        [(.write [1], .error (.io .storageFull)),
          (.write [2], .ok ())] ∧
      (refusedCourse 0 captured).world.1.contents = [] ∧
      (refusedCourse 0 writer).world.1.contents =
        [0, 0, 0, 1, 0, 0, 0, 1, 2] := by
  refine ⟨_, _, rfl, rfl, ?_, ?_, ?_, ?_⟩
  · cbv
  · cbv
  · cbv
  · cbv

end SplitStream
