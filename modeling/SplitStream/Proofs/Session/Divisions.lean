import Mathlib
import SplitStream.Proofs.Writer.Stretches
import SplitStream.Proofs.Writer.Thriving

/-
  Output does not depend on how input is divided. With a
  codec that never fails, over sinks that take all bytes, two
  courses of a writer whose calls carry the same bytes up to
  the same points have the same in both sinks, and count the
  same, at each of these points; and the blocks are full ones
  but for the last one before a flush or finish.

  Main declarations:
    * `ContainerWriter.divides`
    * `RawWriter.divides`
    * `sights_of_stretches`
-/

------------------------------------------------------------
-- Container Writers
------------------------------------------------------------

namespace SplitStream

namespace ContainerWriter

variable {ω : Type}

/- The member is finished, and takes nothing more. -/
def closed
    (writer : ContainerWriter ω) : Bool :=
  writer.stage = .finished

/- The bytes are a layout of segments with these blocks. -/
def Laid
    (blocks : List Bytes)
    (bytes : Bytes) : Prop :=
  ∃ segments,
    Segment.blocks segments = blocks ∧
    bytes = Segment.layout segments

variable
  {writer : ContainerWriter ω} {world : ω}
  {s t u : ContainerWriter ω × ω} {front back : Bytes}

/- Regrouping goes on where it has stopped. -/
theorem regroup_append
    {emit : Emission (Outlet ω × ω)}
    (hFront :
      (onRegrouper (Regrouper.write emit front)).perform s =
        (.ok (), t))
    (hBack :
      (onRegrouper (Regrouper.write emit back)).perform t =
        (.ok (), u)) :
    (onRegrouper (Regrouper.write emit (front ++ back))).perform
        s =
      (.ok (), u) := by
  rcases s with ⟨writer, world⟩
  rcases hRun :
      (Regrouper.write emit front).perform
        (writer.regrouper, writer.outlet, world) with
    ⟨result, regrouper, outlet, next⟩
  cases (perform_onRegrouper hRun).symm.trans hFront
  rcases hRun' :
      (Regrouper.write emit back).perform
        (regrouper, outlet, next) with
    ⟨result', regrouper', outlet', next'⟩
  cases (perform_onRegrouper hRun').symm.trans hBack
  exact perform_onRegrouper (Regrouper.writeFrom_append hRun hRun')

theorem perform_write_nil
    (hStage : writer.stage ≠ .finished)
    (world : ω) :
    (ContainerWriter.write []).perform (writer, world) =
      (.ok (), writer, world) := by
  unfold ContainerWriter.write
  rw [Step.perform_bind_of_ok (perform_current writer world),
    if_neg hStage]
  rfl

/- A write of some bytes opens the member first. -/
theorem perform_write_of_some
    {data : Bytes}
    (hStage : writer.stage ≠ .finished)
    (hSome : data ≠ [])
    (world : ω) :
    (ContainerWriter.write data).perform (writer, world) =
      (openMember >>= fun _ =>
        onRegrouper
          (Regrouper.write writer.emission data)).perform
        (writer, world) := by
  unfold ContainerWriter.write
  rw [Step.perform_bind_of_ok (perform_current writer world),
    if_neg hStage, if_pos (by simpa using hSome)]

/- Regrouping leaves the member as it is. -/
theorem of_onRegrouper
    {α : Type}
    {action : Action (Regrouper × Outlet ω × ω) α}
    {result : Except Error α}
    (h : (onRegrouper action).perform s = (result, t)) :
    t.1.stage = s.1.stage ∧ t.1.emission = s.1.emission := by
  cases h
  exact ⟨rfl, rfl⟩

variable
  {receivers : Receivers ω} {codec : Codec} {fields : Header}
  {blockSize : Nat} {captured torn : Bool}
  {segments : List Segment}

/-
  Two writes that succeed do what one write of all bytes
  does: the member is opened by the first byte of them.
-/
theorem Thrives.write_append
    (h :
      s.1.Thrives receivers codec fields blockSize s.2 captured
        torn segments)
    (hFront :
      (ContainerWriter.write front).perform s = (.ok (), t))
    (hBack :
      (ContainerWriter.write back).perform t = (.ok (), u)) :
    (ContainerWriter.write (front ++ back)).perform s =
      (.ok (), u) := by
  rcases s with ⟨writer, world⟩
  by_cases hStage : writer.stage = .finished
  · rw [perform_write_of_finished hStage] at hFront
    cases hFront
  by_cases hSome : front = []
  · subst hSome
    rw [perform_write_nil hStage] at hFront
    cases hFront
    exact hBack
  rcases h.openMember hStage with
    ⟨opened, middle, _, hOpen, _, _, hOpened, _, hChecksums⟩
  have hEmission : writer.emission = opened.emission := by
    rw [emission, emission, hChecksums]
  rw [perform_write_of_some hStage hSome,
    Step.perform_bind_of_ok hOpen, hEmission] at hFront
  rcases of_onRegrouper hFront with ⟨hStage', hEmission'⟩
  rw [hOpened] at hStage'
  have hOpen' : t.1.stage ≠ .finished := by simp [hStage']
  by_cases hSome' : back = []
  · subst hSome'
    rw [perform_write_nil hOpen'] at hBack
    cases hBack
    rw [List.append_nil, perform_write_of_some hStage hSome,
      Step.perform_bind_of_ok hOpen, hEmission]
    exact hFront
  · rw [perform_write_of_some hOpen' hSome',
      Step.perform_bind_of_ok
        (perform_openMember_of_opened t.2 hStage'),
      hEmission'] at hBack
    have hAll : front ++ back ≠ [] :=
      List.append_ne_nil_of_left_ne_nil hSome _
    rw [perform_write_of_some hStage hAll,
      Step.perform_bind_of_ok hOpen, hEmission]
    exact regroup_append hFront hBack

variable
  {data index : Conduct} {hData : data.Accepting}
  {hIndex : index.Reliable}

/- The writer thrives over two sinks. -/
def ThrivesAt
    (receivers : Receivers SinkPair)
    (codec : Codec)
    (fields : Header)
    (blockSize : Nat)
    (state : ContainerWriter SinkPair × SinkPair) : Prop :=
  ∃ captured torn segments,
    state.1.Thrives receivers codec fields blockSize state.2
      captured torn segments

/- Further segments are laid out behind those before. -/
theorem Thrives.laysOut
    {before after : ContainerWriter SinkPair × SinkPair}
    {torn' : Bool}
    {added : List Segment}
    (h :
      before.1.Thrives (SinkPair.receivers hData hIndex) codec
        fields blockSize before.2 captured torn segments)
    (hAfter :
      after.1.Thrives (SinkPair.receivers hData hIndex) codec
        fields blockSize after.2 captured torn'
        (segments ++ added)) :
    FrameWriter.LaysOut Laid before (Segment.blocks added)
      after := by
  rcases h.stands.outlet.holds with ⟨_, hHold, _⟩
  rcases hAfter.stands.outlet.holds with ⟨_, hHold', _⟩
  constructor
  · refine ⟨Segment.layout added, ⟨added, rfl, rfl⟩, ?_⟩
    rw [hHold.data.contents, hHold'.data.contents,
      Segment.layout_append]
  · have hFrames := h.stands.outlet.frames
    have hFrames' := hAfter.stands.outlet.frames
    rw [Segment.frames_append, ← hFrames] at hFrames'
    rw [Segment.length_blocks]
    exact hFrames'

/- At a point, nothing is held any longer. -/
theorem Thrives.point
    (h :
      s.1.Thrives receivers codec fields blockSize s.2 captured
        torn segments)
    {call : Call}
    (hPoint : call.isPoint = true) :
    ∃ torn' added,
      (call.after s).1.Thrives receivers codec fields blockSize
        (call.after s).2 captured torn' (segments ++ added) ∧
      FrameWriter.pending (call.after s).1 = 0 ∧
      (call = .flush ∨ call = .finish →
        Segment.blocks added = s.1.regrouper.remainder) := by
  cases call with
  | write data => cases hPoint
  | writeRange buffer offset length => cases hPoint
  | flush =>
    rcases h.flush with
      ⟨result, writer', next, added, hFlush, hNext, _, hHeld,
        hBlocks, _⟩
    have hCall : Call.flush.action.perform s = _ := hFlush
    rw [Call.after_eq hCall]
    exact ⟨torn, added, hNext, hHeld, fun _ => hBlocks⟩
  | finish =>
    rcases h.finish with
      ⟨result, writer', next, torn', added, hFinish, hNext, hHeld,
        hBlocks, _⟩
    rw [Call.after_eq (Call.perform_finish hFinish)]
    exact ⟨torn', added, hNext, hHeld, fun _ => hBlocks⟩
  | reset =>
    rcases h.reset with ⟨writer', hReset, hNext, hHeld⟩
    have hCall : Call.reset.action.perform s = _ := hReset
    rw [Call.after_eq hCall]
    refine ⟨torn, [], by simpa using hNext, hHeld, ?_⟩
    rintro (hFlush | hFinish)
    · cases hFlush
    · cases hFinish

/- Container writers divide what they take. -/
theorem divides
    (hData : data.Accepting)
    (hIndex : index.Reliable)
    (codec : Codec)
    (fields : Header)
    (blockSize : Nat) :
    FrameWriter.Divides closed blockSize Laid
      (ThrivesAt (SinkPair.receivers hData hIndex) codec fields
        blockSize) where
  laid_append := by
    rintro _ _ _ _ ⟨front, rfl, rfl⟩ ⟨back, rfl, rfl⟩
    exact
      ⟨front ++ back, Segment.blocks_append front back,
        (Segment.layout_append front back).symm⟩
  held_lt := by
    rintro s ⟨_, _, _, h⟩
    exact h.held_lt
  refuses := by
    intro s bytes hClosed
    exact
      ⟨_, perform_write_of_finished (of_decide_eq_true hClosed)
        bytes s.2⟩
  empty := by
    intro s hOpen
    exact perform_write_nil (of_decide_eq_false hOpen) s.2
  append := by
    rintro s t u front back ⟨_, _, _, h⟩ hFront hBack
    exact h.write_append hFront hBack
  takes := by
    rintro s bytes ⟨captured, torn, segments, h⟩ hOpen
    rcases h.write (of_decide_eq_false hOpen) bytes with
      ⟨writer, world, added, hWrite, hNext, hStage, hBytes,
        hFull⟩
    exact
      ⟨(writer, world), Segment.blocks added, hWrite,
        ⟨captured, torn, _, hNext⟩, decide_eq_false hStage,
        h.laysOut hNext, hBytes, hFull⟩
  ends := by
    rintro s call ⟨captured, torn, segments, h⟩ hPoint
    rcases h.point hPoint with ⟨torn', added, hNext, hNone, _⟩
    exact ⟨⟨captured, torn', _, hNext⟩, hNone⟩
  lays := by
    rintro s call ⟨captured, torn, segments, h⟩ hCall
    have hPoint : call.isPoint = true := by
      rcases hCall with rfl | rfl
      · rfl
      · rfl
    rcases h.point hPoint with ⟨torn', added, hNext, _, hBlocks⟩
    have hLaid := h.laysOut hNext
    rw [hBlocks hCall] at hLaid
    exact hLaid

end ContainerWriter

------------------------------------------------------------
-- Raw Writers
------------------------------------------------------------

namespace RawWriter

variable {ω : Type}

/- The bytes are a layout of frames with these blocks. -/
def Laid
    (blocks : List Bytes)
    (bytes : Bytes) : Prop :=
  ∃ contents : List PackedBlock,
    contents.map PackedBlock.block = blocks ∧
    bytes = RawStream.layout contents

variable
  {s t u : RawWriter ω × ω} {front back : Bytes}
  {receivers : Receivers ω} {codec : Codec} {blockSize : Nat}
  {captured : Bool} {contents : List PackedBlock}

/- Two writes that succeed do what one write does. -/
theorem write_append
    (hFront : (RawWriter.write front).perform s = (.ok (), t))
    (hBack : (RawWriter.write back).perform t = (.ok (), u)) :
    (RawWriter.write (front ++ back)).perform s =
      (.ok (), u) := by
  rcases s with ⟨writer, world⟩
  rcases hRun :
      (Regrouper.write (Outlet.emit Frame.rawPieces)
        front).perform
        (writer.regrouper, writer.outlet, world) with
    ⟨result, regrouper, outlet, next⟩
  cases (perform_onRegrouper hRun).symm.trans hFront
  rcases hRun' :
      (Regrouper.write (Outlet.emit Frame.rawPieces)
        back).perform
        (regrouper, outlet, next) with
    ⟨result', regrouper', outlet', next'⟩
  cases (perform_onRegrouper hRun').symm.trans hBack
  exact perform_onRegrouper (Regrouper.writeFrom_append hRun hRun')

theorem perform_write_nil
    (state : RawWriter ω × ω) :
    (RawWriter.write []).perform state = (.ok (), state) := by
  rcases state with ⟨writer, world⟩
  have hNone : ¬ writer.regrouper.Completes [] :=
    fun hCompletes => hCompletes.some rfl
  exact
    perform_onRegrouper
      (Regrouper.writeFrom_of_lacking _ hNone _)

/- At a point, nothing is held any longer. -/
theorem Thrives.point
    (h :
      s.1.Thrives receivers codec blockSize s.2 captured
        contents)
    {call : Call}
    (hPoint : call.isPoint = true) :
    ∃ added,
      (call.after s).1.Thrives receivers codec blockSize
        (call.after s).2 captured (contents ++ added) ∧
      FrameWriter.pending (call.after s).1 = 0 ∧
      (call = .flush ∨ call = .finish →
        added.map PackedBlock.block =
          s.1.regrouper.remainder) := by
  cases call with
  | write data => cases hPoint
  | writeRange buffer offset length => cases hPoint
  | flush =>
    rcases h.flush with
      ⟨result, writer', next, added, hFlush, hNext, hHeld,
        hBlocks, _⟩
    have hCall : Call.flush.action.perform s = _ := hFlush
    rw [Call.after_eq hCall]
    exact ⟨added, hNext, hHeld, fun _ => hBlocks⟩
  | finish =>
    rcases h.finish with
      ⟨result, writer', next, added, hFinish, hNext, hHeld,
        hBlocks, _⟩
    rw [Call.after_eq (Call.perform_finish hFinish)]
    exact ⟨added, hNext, hHeld, fun _ => hBlocks⟩
  | reset =>
    rcases h.reset with ⟨writer', hReset, hNext, hHeld⟩
    have hCall : Call.reset.action.perform s = _ := hReset
    rw [Call.after_eq hCall]
    refine ⟨[], by simpa using hNext, hHeld, ?_⟩
    rintro (hFlush | hFinish)
    · cases hFlush
    · cases hFinish

variable
  {data index : Conduct} {hData : data.Accepting}
  {hIndex : index.Reliable}

/- Further frames are laid out behind those before. -/
theorem Thrives.laysOut
    {before after : RawWriter SinkPair × SinkPair}
    {added : List PackedBlock}
    (h :
      before.1.Thrives (SinkPair.receivers hData hIndex) codec
        blockSize before.2 captured contents)
    (hAfter :
      after.1.Thrives (SinkPair.receivers hData hIndex) codec
        blockSize after.2 captured (contents ++ added)) :
    FrameWriter.LaysOut Laid before
      (added.map PackedBlock.block) after := by
  rcases h.stands.outlet.holds with ⟨_, hHold, _⟩
  rcases hAfter.stands.outlet.holds with ⟨_, hHold', _⟩
  constructor
  · refine ⟨RawStream.layout added, ⟨added, rfl, rfl⟩, ?_⟩
    rw [hHold.data.contents, hHold'.data.contents,
      RawStream.layout_append]
  · have hFrames := h.stands.outlet.frames
    have hFrames' := hAfter.stands.outlet.frames
    rw [RawStream.length_offsets] at hFrames hFrames'
    rw [List.length_append, ← hFrames] at hFrames'
    rw [List.length_map]
    exact hFrames'

/- The writer thrives over two sinks. -/
def ThrivesAt
    (receivers : Receivers SinkPair)
    (codec : Codec)
    (blockSize : Nat)
    (state : RawWriter SinkPair × SinkPair) : Prop :=
  ∃ captured contents,
    state.1.Thrives receivers codec blockSize state.2 captured
      contents

/- Raw writers divide what they take, and are never closed. -/
theorem divides
    (hData : data.Accepting)
    (hIndex : index.Reliable)
    (codec : Codec)
    (blockSize : Nat) :
    FrameWriter.Divides (fun _ => false) blockSize Laid
      (ThrivesAt (SinkPair.receivers hData hIndex) codec
        blockSize) where
  laid_append := by
    rintro _ _ _ _ ⟨front, rfl, rfl⟩ ⟨back, rfl, rfl⟩
    exact
      ⟨front ++ back, List.map_append,
        (RawStream.layout_append front back).symm⟩
  held_lt := by
    rintro s ⟨_, _, h⟩
    exact h.held_lt
  refuses := by
    intro s bytes hClosed
    cases hClosed
  empty := fun s _ => perform_write_nil s
  append := fun _ _ _ _ _ _ hFront hBack =>
    write_append hFront hBack
  takes := by
    rintro s bytes ⟨captured, contents, h⟩ _
    rcases h.write bytes with
      ⟨writer, world, added, hWrite, hNext, hBytes, hFull⟩
    exact
      ⟨(writer, world), added.map PackedBlock.block, hWrite,
        ⟨captured, _, hNext⟩, rfl, h.laysOut hNext, hBytes,
        hFull⟩
  ends := by
    rintro s call ⟨captured, contents, h⟩ hPoint
    rcases h.point hPoint with ⟨added, hNext, hNone, _⟩
    exact ⟨⟨captured, _, hNext⟩, hNone⟩
  lays := by
    rintro s call ⟨captured, contents, h⟩ hCall
    have hPoint : call.isPoint = true := by
      rcases hCall with rfl | rfl
      · rfl
      · rfl
    rcases h.point hPoint with ⟨added, hNext, _, hBlocks⟩
    have hLaid := h.laysOut hNext
    rw [hBlocks hCall] at hLaid
    exact hLaid

end RawWriter

------------------------------------------------------------
-- Both Kinds
------------------------------------------------------------

/- A writer as it was made, or with an index attached. -/
def Attached
    {W : Type → Type}
    [FrameWriter W]
    (writer attached : W SinkPair) : Prop :=
  attached = writer ∨
    FrameWriter.attach writer SinkPair.indexChannel =
      .ok attached

/-
  Over sinks that take all bytes, and with a codec that never
  fails, what new writers of both kinds lay out does not
  depend on how their input is divided.
-/
theorem sights_of_stretches
    {data index : Conduct}
    (hData : data.Accepting)
    (hIndex : index.Reliable) :
    (∀ codec options clock writer attached world,
      codec.NeverFails options.blockSize →
      (ContainerWriter.new SinkPair.dataChannel codec options
          clock).perform (.empty data index) =
        (.ok writer, world) →
      Attached writer attached →
        (Course.opened attached world).DividesAlike
          ContainerWriter.closed options.blockSize
          ContainerWriter.Laid) ∧
    (∀ codec blockSize writer attached,
      codec.NeverFails blockSize →
      RawWriter.new SinkPair.dataChannel codec blockSize =
        .ok writer →
      Attached writer attached →
        (Course.opened attached
            (.empty data index)).DividesAlike
          (fun _ => false) blockSize RawWriter.Laid) := by
  have hHolds :
      (SinkPair.receivers hData hIndex).Holds (.empty data index)
        [] [] :=
    SinkPair.hold_empty data index
  constructor
  · intro codec options clock writer attached world hCodec hNew
      hAttached
    rcases ContainerWriter.thrives_new hCodec hHolds hNew with
      ⟨segments, hWriter⟩
    have hHeld :=
      (Regrouper.of_new (ContainerWriter.regrouper_of_new hNew)).2
    apply (ContainerWriter.divides hData hIndex codec _
      options.blockSize).dividesAlike
    · rcases hAttached with rfl | hAttach
      · exact ⟨_, _, _, hWriter⟩
      · exact ⟨_, _, _, hWriter.attach hAttach⟩
    · rcases hAttached with rfl | hAttach
      · exact hHeld
      · have hSame := (hWriter.stands.attach hAttach).2
        exact (congrArg Regrouper.pending hSame).trans hHeld
  · intro codec blockSize writer attached hCodec hNew hAttached
    have hWriter := RawWriter.thrives_new hCodec hHolds hNew
    have hHeld : writer.regrouper.pending = 0 :=
      congrArg Tape.size (RawWriter.stands_new hHolds hNew).2
    apply (RawWriter.divides hData hIndex codec
      blockSize).dividesAlike
    · rcases hAttached with rfl | hAttach
      · exact ⟨_, _, hWriter⟩
      · exact ⟨_, _, hWriter.attach hAttach⟩
    · rcases hAttached with rfl | hAttach
      · exact hHeld
      · have hSame := (hWriter.stands.attach hAttach).2
        exact (congrArg Regrouper.pending hSame).trans hHeld

------------------------------------------------------------
-- Two Divisions
------------------------------------------------------------

/-
  The same bytes up to the same points, in few calls and in
  many. A finished member refuses what comes before a reset.
-/
def fewCalls : List Call :=
  [.write [1, 2, 3, 4, 5], .flush, .write [6, 7], .finish,
    .write [8], .reset]

def manyCalls : List Call :=
  [.write [1], .writeRange [0, 2, 3, 4, 0] 1 3, .write [],
    .write [5], .flush, .writeRange [6] 1 1, .write [6],
    .writeRange [7] 0 2, .write [7], .finish,
    .writeRange [8] 0 1, .reset]

/- A new writer of blocks of two bytes, with an index. -/
def pairsCourse :
    Except Error (Course ContainerWriter SinkPair) :=
  match (ContainerWriter.new SinkPair.dataChannel .stored
      { WriterOptions.standard with blockSize := 2 } 0).perform
      (.empty .willing .willing) with
  | (.error e, _) => .error e
  | (.ok writer, world) =>
      (writer.attach SinkPair.indexChannel).map fun attached =>
        .opened attached world

theorem sights_of_pairs :
    Call.stretches fewCalls = Call.stretches manyCalls ∧
    (∃ course,
      pairsCourse = .ok course ∧
      course.sights fewCalls = course.sights manyCalls ∧
      (course.sights manyCalls).map Sight.frames =
        [3, 4, 4]) ∧
    ∃ writer attached,
      RawWriter.new SinkPair.dataChannel .stored 2 =
        .ok writer ∧
      writer.attach SinkPair.indexChannel = .ok attached ∧
      let course :=
        Course.opened attached (.empty .willing .willing)
      course.sights fewCalls = course.sights manyCalls := by
  have hStretches :
      Call.stretches fewCalls = Call.stretches manyCalls := by
    decide
  have hBoth :=
    sights_of_stretches Conduct.reliable_willing.1
      Conduct.reliable_willing
  have hCodec := Codec.stored_neverFails 2
  refine ⟨hStretches, ?_, ?_⟩
  · have hFrames :
        pairsCourse.map
            (fun course =>
              (course.sights manyCalls).map Sight.frames) =
          .ok [3, 4, 4] := by
      cbv
    rcases ok_of_map hFrames with ⟨course, hCourse, hSights⟩
    refine ⟨course, hCourse, ?_, hSights⟩
    unfold pairsCourse at hCourse
    split at hCourse
    · cases hCourse
    rename_i writer world hNew
    rcases ok_of_map hCourse with ⟨attached, hAttach, rfl⟩
    have hDivides :=
      hBoth.1 _ _ _ writer attached world hCodec hNew
        (.inr hAttach)
    exact hDivides.alike fewCalls manyCalls hStretches
  · refine ⟨_, _, rfl, rfl, ?_⟩
    exact
      (hBoth.2 _ 2 _ _ hCodec rfl (.inr rfl)).alike fewCalls
        manyCalls hStretches

end SplitStream
