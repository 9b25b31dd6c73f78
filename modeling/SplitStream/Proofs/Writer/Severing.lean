import SplitStream.Proofs.Raw.Layout
import SplitStream.Proofs.Writer.Truthful

/-
  Sinks that fail beside sinks that never do. Up to the first
  failure, both receive the same parts, one after another. The
  failure leaves the whole parts before it and the beginning
  of the next one; the start of that part may have been
  recorded, but it does not count.

  Main declarations:
    * `Laying`
    * `Laying.Remains`
    * `Laying.Severed`
    * `Laying.LaidOut`
    * `Laying.Level`
    * `Laying.Behind`
    * `Laying.lags_putPart`
    * `Laying.lags_emitPart`
    * `ContainerWriter.lagging_severed`
    * `RawWriter.lagging_severed`
-/

------------------------------------------------------------
-- Parts
------------------------------------------------------------

namespace SplitStream

/- How parts are laid out, and which of them are frames. -/
structure Laying
    (P : Type) where
  encode : P → Bytes
  isFrame : P → Bool

namespace Laying

variable {P : Type} (laying : Laying P)

/- The layout of parts one after another. -/
def layout
    (parts : List P) : Bytes :=
  parts.flatMap laying.encode

/- The number of frames. -/
def frames
    (parts : List P) : Nat :=
  parts.countP laying.isFrame

/-
  The positions of the frames among parts that are laid out
  from a position on.
-/
def offsets
    (start : Nat) : List P → List Nat
  | [] => []
  | part :: rest =>
      (if laying.isFrame part then [start] else []) ++
        offsets (start + (laying.encode part).length) rest

/-
  What is left of parts when some of them are whole: nothing
  more, or the beginning of the next part as well. If that
  part is a frame, its position has been recorded too.
-/
inductive Remains
    (whole : List P) : List P → Bytes → List Nat → Prop
  | untouched
      (later : List P) :
      Remains whole later (laying.layout whole)
        (laying.offsets 0 whole)
  | cut
      (part : P)
      (later : List P)
      (n : Nat)
      (hLess : n < (laying.encode part).length) :
      Remains whole (part :: later)
        (laying.layout whole ++ (laying.encode part).take n)
        (laying.offsets 0 whole ++
          if laying.isFrame part then
            [(laying.layout whole).length]
          else
            [])

variable
  {laying} {parts whole later : List P} {part : P}
  {contents : Bytes} {recorded : List Nat}

@[simp]
theorem layout_append
    (front back : List P) :
    laying.layout (front ++ back) =
      laying.layout front ++ laying.layout back :=
  List.flatMap_append

@[simp]
theorem layout_singleton
    (part : P) :
    laying.layout [part] = laying.encode part := by
  simp [layout]

theorem offsets_snoc
    (start : Nat)
    (front : List P)
    (part : P) :
    laying.offsets start (front ++ [part]) =
      laying.offsets start front ++
        if laying.isFrame part then
          [start + (laying.layout front).length]
        else
          [] := by
  induction front generalizing start with
  | nil => simp [offsets, layout]
  | cons first front ih =>
    rw [List.cons_append, offsets, offsets, ih, layout, layout,
      List.flatMap_cons, List.length_append, ← Nat.add_assoc,
      List.append_assoc]

/- The position of a frame that was cut has been recorded. -/
theorem Remains.cut_frame
    {n : Nat}
    (hFrame : laying.isFrame part = true)
    (hLess : n < (laying.encode part).length) :
    laying.Remains whole [part]
      (laying.layout whole ++ (laying.encode part).take n)
      (laying.offsets 0 whole ++
        [(laying.layout whole).length]) := by
  have hCut : laying.Remains whole [part] _ _ :=
    .cut part [] n hLess
  rw [if_pos hFrame] at hCut
  exact hCut

theorem Remains.cut_other
    {n : Nat}
    (hFrame : laying.isFrame part = false)
    (hLess : n < (laying.encode part).length) :
    laying.Remains whole [part]
      (laying.layout whole ++ (laying.encode part).take n)
      (laying.offsets 0 whole) := by
  have hCut : laying.Remains whole [part] _ _ :=
    .cut part [] n hLess
  rw [if_neg (by simp [hFrame]), List.append_nil] at hCut
  exact hCut

/- More parts may follow. -/
theorem Remains.append
    (h : laying.Remains whole later contents recorded)
    (more : List P) :
    laying.Remains whole (later ++ more) contents recorded := by
  cases h with
  | untouched => exact .untouched _
  | cut part later n hLess => exact .cut part (later ++ more) n hLess

/- What is left comes first in what would have been. -/
theorem Remains.prefix_layout
    (h : laying.Remains whole later contents recorded) :
    contents <+: laying.layout (whole ++ later) := by
  rw [layout_append]
  cases h with
  | untouched => exact List.prefix_append _ _
  | cut part later n hLess =>
    apply (List.prefix_append_right_inj _).mpr
    exact
      (List.take_prefix n _).trans
        (List.prefix_append _ (laying.layout later))

------------------------------------------------------------
-- Outlets
------------------------------------------------------------

/-
  What an outlet and its sinks have come to: some parts are
  whole, and the others are not. The positions are recorded
  if the index never fails.
-/
structure Severed
    (laying : Laying P)
    (index : Conduct)
    (captured : Bool)
    (whole later : List P)
    (left : Outlet WatchedSinks × WatchedSinks) : Prop where
  frames : left.1.frames = laying.frames whole
  captured : left.1.capture.isSome = captured
  remains :
    ∃ recorded,
      laying.Remains whole later left.2.data.contents recorded ∧
      (index.Reliable →
        ∀ capture ∈ left.1.capture,
          capture.Records WatchedSinks.indexChannel
            left.2.index.contents recorded)

/- Parts have left an outlet to a data sink that never fails. -/
structure LaidOut
    (laying : Laying P)
    (ideal : Conduct)
    (parts : List P)
    (right : Outlet WatchedSinks × WatchedSinks) : Prop where
  counted : WatchedSinks.Counted ideal false right
  frames : right.1.frames = laying.frames parts
  contents : right.2.data.contents = laying.layout parts

/-
  The same outlet before two data sinks that have received
  the same, and the same index. The first data sink has not
  failed.
-/
structure Level
    (laying : Laying P)
    {ideal : Conduct}
    (conduct : Conduct)
    (hIdeal : ideal.Reliable)
    (index : Conduct)
    (captured : Bool)
    (parts : List P)
    (left right : Outlet WatchedSinks × WatchedSinks) :
    Prop where
  outlet : left.1 = right.1
  indexes : left.2.index = right.2.index
  data : left.2.data.Holds conduct right.2.data.contents
  calm : left.2.failed = false
  capturing : right.1.capture.isSome = captured
  laid : laying.LaidOut ideal parts right
  recorded :
    ∀ hIndex : index.Reliable,
      right.1.Carries (WatchedSinks.receivers hIdeal.1 hIndex)
        right.2 captured (laying.layout parts)
        (laying.offsets 0 parts)

/- Both outlets are level, whatever has left them. -/
def Alike
    (laying : Laying P)
    {ideal : Conduct}
    (conduct : Conduct)
    (hIdeal : ideal.Reliable)
    (index : Conduct)
    (captured : Bool)
    (left right : Outlet WatchedSinks × WatchedSinks) : Prop :=
  ∃ parts,
    laying.Level conduct hIdeal index captured parts left right

/-
  A data sink has failed, and one that never fails has all
  that it has, and maybe more.
-/
def Behind
    (laying : Laying P)
    (ideal index : Conduct)
    (captured : Bool)
    (left right : Outlet WatchedSinks × WatchedSinks) : Prop :=
  left.2.failed = true ∧
    ∃ whole later,
      laying.Severed index captured whole later left ∧
      laying.LaidOut ideal (whole ++ later) right

variable
  {conduct ideal index : Conduct} {hIdeal : ideal.Reliable}
  {captured : Bool}
  {left right : Outlet WatchedSinks × WatchedSinks}

theorem Level.severed
    (h :
      laying.Level conduct hIdeal index captured parts left
        right) :
    laying.Severed index captured parts [] left := by
  refine ⟨?_, ?_, laying.offsets 0 parts, ?_, ?_⟩
  · rw [h.outlet]
    exact h.laid.frames
  · rw [h.outlet]
    exact h.capturing
  · rw [h.data.contents, h.laid.contents]
    exact .untouched []
  · intro hIndex
    rcases (h.recorded hIndex).holds with
      ⟨indexed, hHolds, _, hRecords⟩
    have hIndexed : right.2.index.contents = indexed :=
      hHolds.2.contents
    rw [h.outlet, h.indexes, hIndexed]
    exact hRecords

/- What has gone on is still ahead. -/
theorem Behind.onward
    {next : Outlet WatchedSinks × WatchedSinks}
    (h : laying.Behind ideal index captured left right)
    (hOnward :
      ∀ parts,
        laying.LaidOut ideal parts right →
          ∃ more, laying.LaidOut ideal (parts ++ more) next) :
    laying.Behind ideal index captured left next := by
  rcases h with ⟨hFailed, whole, later, hSevered, hLaid⟩
  rcases hSevered.remains with ⟨recorded, hRemains, hRecords⟩
  rcases hOnward _ hLaid with ⟨more, hNext⟩
  rw [List.append_assoc] at hNext
  exact
    ⟨hFailed, whole, later ++ more,
      ⟨hSevered.frames, hSevered.captured, recorded,
        hRemains.append more, hRecords⟩,
      hNext⟩

------------------------------------------------------------
-- Pieces
------------------------------------------------------------

/- Pieces leave an outlet to a sink that never fails. -/
theorem LaidOut.perform_putAll
    {outlet : Outlet WatchedSinks}
    {others : WatchedSinks}
    (h : laying.LaidOut ideal parts (outlet, others))
    (hIdeal : ideal.Reliable)
    (pieces : List Bytes) :
    ∃ next,
      (Outlet.putAll pieces).perform (outlet, others) =
        (.ok (),
          { outlet with
            written := outlet.written + pieces.flatten.length },
          next) ∧
      next.index = others.index ∧
      next.data.Holds ideal
        (laying.layout parts ++ pieces.flatten) := by
  have hHolds : others.data.Holds ideal (laying.layout parts) :=
    ⟨h.contents, h.counted.conduct⟩
  rcases Outlet.perform_putAll_of_accepts
    (WatchedSinks.accepts_data hIdeal.1 (· = others.index))
    pieces outlet others h.counted.channel ⟨hHolds, rfl⟩ with
    ⟨next, hPut, hNext, hKept⟩
  exact ⟨next, hPut, hKept, hNext⟩

/- The pieces of a part have been laid out behind the others. -/
theorem LaidOut.snoc
    {outlet : Outlet WatchedSinks}
    {others next : WatchedSinks}
    (h : laying.LaidOut ideal parts (outlet, others))
    {pieces : List Bytes}
    (hPieces : pieces.flatten = laying.encode part)
    (hNext :
      next.data.Holds ideal
        (laying.layout parts ++ pieces.flatten)) :
    laying.LaidOut ideal (parts ++ [part])
      ({ outlet with
          written := outlet.written + pieces.flatten.length
          frames :=
            outlet.frames +
              if laying.isFrame part then 1 else 0 },
        next) where
  counted :=
    { channel := h.counted.channel
      capture := h.counted.capture
      conduct := hNext.conduct
      written := by
        have hWritten :
            outlet.written = others.data.contents.length :=
          h.counted.written
        rw [hNext.contents, List.length_append, hWritten,
          h.contents]
      failed := fun hNever => nomatch hNever }
  frames := by
    have hFrames : outlet.frames = laying.frames parts :=
      h.frames
    simp only [hFrames, Laying.frames, List.countP_append,
      List.countP_singleton]
  contents := by
    rw [hNext.contents, layout_append, layout_singleton, hPieces]

/- Pieces leave both outlets, or a sink fails among them. -/
theorem overtaken_putAll
    (hTruthful : conduct.Truthful)
    (hIdeal : ideal.Reliable)
    (pieces : List Bytes)
    {outlet : Outlet WatchedSinks}
    {sinks others : WatchedSinks}
    (hSame : sinks.index = others.index)
    (hData : sinks.data.Holds conduct others.data.contents)
    (hCalm : sinks.failed = false)
    (hLaid : laying.LaidOut ideal parts (outlet, others)) :
    ∃ next,
      (Outlet.putAll pieces).perform (outlet, others) =
        (.ok (),
          { outlet with
            written := outlet.written + pieces.flatten.length },
          next) ∧
      next.index = others.index ∧
      next.data.Holds ideal
        (laying.layout parts ++ pieces.flatten) ∧
      ((∃ last,
        (Outlet.putAll pieces).perform (outlet, sinks) =
          (.ok (),
            { outlet with
              written :=
                outlet.written + pieces.flatten.length },
            last) ∧
        last.index = next.index ∧
        last.data.Holds conduct next.data.contents ∧
        last.failed = false) ∨
      ∃ kind n last,
        n < pieces.flatten.length ∧
        (Outlet.putAll pieces).perform (outlet, sinks) =
          (.error (.io kind),
            { outlet with written := outlet.written + n },
            last) ∧
        last.index = others.index ∧
        last.data.contents =
          laying.layout parts ++ pieces.flatten.take n ∧
        last.failed = true) := by
  have hContents : others.data.contents = laying.layout parts :=
    hLaid.contents
  rcases hLaid.perform_putAll hIdeal pieces with
    ⟨next, hPut, hKept, hNext⟩
  refine ⟨next, hPut, hKept, hNext, ?_⟩
  rw [hContents] at hData
  rcases Outlet.perform_putAll_of_truthful
    (WatchedSinks.truthful_data hTruthful sinks.index
      sinks.failed)
    pieces outlet sinks hLaid.counted.channel
    ⟨hData, rfl, rfl⟩ with
    ⟨last, hLast, hTaken, hOwn, hStill⟩ |
      ⟨kind, n, last, hLess, hLast, hTaken, hOwn, hFailed⟩
  · left
    refine ⟨last, hLast, ?_, ?_, hStill.trans hCalm⟩
    · rw [hOwn, hSame, hKept]
    · rw [hNext.contents]
      exact hTaken
  · right
    exact
      ⟨kind, n, last, hLess, hLast, hOwn.trans hSame,
        hTaken.contents, hFailed⟩

/- A part without a frame leaves a sink that never fails. -/
theorem LaidOut.putPart
    (h : laying.LaidOut ideal parts right)
    (hIdeal : ideal.Reliable)
    (hFrame : laying.isFrame part = false)
    {pieces : List Bytes}
    (hPieces : pieces.flatten = laying.encode part) :
    laying.LaidOut ideal (parts ++ [part])
      ((Outlet.putAll pieces).final right) := by
  rcases right with ⟨outlet, others⟩
  rcases h.perform_putAll hIdeal pieces with
    ⟨next, hPut, _, hNext⟩
  have hSnoc := h.snoc hPieces hNext
  rw [hFrame] at hSnoc
  unfold Step.final
  rw [hPut]
  exact hSnoc

/- The position of a part without a frame is not recorded. -/
theorem carries_putPart
    {receivers : Receivers WatchedSinks}
    (h :
      right.1.Carries receivers right.2 captured
        (laying.layout parts) (laying.offsets 0 parts))
    (hFrame : laying.isFrame part = false)
    {pieces : List Bytes}
    (hPieces : pieces.flatten = laying.encode part) :
    let put := (Outlet.putAll pieces).final right
    put.1.Carries receivers put.2 captured
      (laying.layout (parts ++ [part]))
      (laying.offsets 0 (parts ++ [part])) := by
  intro put
  rcases h.putAll pieces with ⟨outlet, next, hPut, hNext⟩
  have hOffsets :
      laying.offsets 0 (parts ++ [part]) =
        laying.offsets 0 parts := by
    rw [offsets_snoc, if_neg (by simp [hFrame]), List.append_nil]
  have hLast : put = (outlet, next) := congrArg Prod.snd hPut
  rw [hLast, hOffsets, layout_append, layout_singleton,
    ← hPieces]
  exact hNext

/- A part without a frame lags. -/
theorem lags_putPart
    (hTruthful : conduct.Truthful)
    (hFrame : laying.isFrame part = false)
    {pieces : List Bytes}
    (hPieces : pieces.flatten = laying.encode part) :
    (Outlet.putAll pieces).Lags (Error.isIo · = true)
      (laying.Alike conduct hIdeal index captured)
      (laying.Behind ideal index captured) where
  along := by
    rintro ⟨outlet, sinks⟩ ⟨_, others⟩ ⟨parts, hLevel⟩
    have hOutlet : outlet = _ := hLevel.outlet
    subst hOutlet
    have hLaid := hLevel.laid
    have hLaid' := hLaid.putPart hIdeal hFrame hPieces
    have hRecorded (hIndex : index.Reliable) :=
      carries_putPart (hLevel.recorded hIndex) hFrame hPieces
    unfold Step.final at hLaid' hRecorded
    rcases overtaken_putAll hTruthful hIdeal pieces hLevel.indexes
      hLevel.data hLevel.calm hLaid with
      ⟨next, hRight, _, _,
        ⟨last, hLeft, hIndexes, hTaken, hCalm⟩ |
        ⟨kind, n, last, hLess, hLeft, hIndexes, hTaken,
          hFailed⟩⟩
    · rw [hRight] at hLaid' hRecorded
      rw [hLeft, hRight]
      exact
        Step.overtaken_of_same
          ⟨parts ++ [part], rfl, hIndexes, hTaken, hCalm,
            hLevel.capturing, hLaid', hRecorded⟩
    · rw [hPieces] at hLess hTaken
      rw [hLeft]
      right
      refine
        ⟨.io kind, _, rfl, rfl, hFailed, parts, [part],
          ⟨hLaid.frames, hLevel.capturing, laying.offsets 0 parts,
            ?_, ?_⟩,
          hLaid'⟩
      · rw [hTaken]
        exact .cut_other hFrame hLess
      · intro hIndex
        rcases (hLevel.recorded hIndex).holds with
          ⟨indexed, hHolds, _, hRecords⟩
        have hIndexed : others.index.contents = indexed :=
          hHolds.2.contents
        rw [hIndexes, hIndexed]
        exact hRecords
  behind := fun _ _ h =>
    h.onward fun _ hLaid =>
      ⟨[part], hLaid.putPart hIdeal hFrame hPieces⟩

------------------------------------------------------------
-- Frames
------------------------------------------------------------

/- Nothing leaves by what is done to a capture. -/
theorem LaidOut.reindexed
    {outlet : Outlet WatchedSinks}
    {others : WatchedSinks}
    (h : laying.LaidOut ideal parts (outlet, others))
    {capture : Option (Capture WatchedSinks)}
    (hCapture :
      ∀ next ∈ capture,
        next.channel = WatchedSinks.indexChannel)
    (index : Sink) :
    laying.LaidOut ideal parts
      ({ outlet with capture := capture },
        { others with index := index }) :=
  ⟨h.counted.reindexed hCapture index, h.frames, h.contents⟩

/- A frame leaves a sink that never fails, unless its index does. -/
theorem LaidOut.emitPart
    (h : laying.LaidOut ideal parts right)
    (hIdeal : ideal.Reliable)
    (hFrame : laying.isFrame part = true)
    {layout : Bytes → Bytes → List Bytes}
    {block packed : Bytes}
    (hPieces : (layout block packed).flatten = laying.encode part) :
    ∃ more,
      laying.LaidOut ideal (parts ++ more)
        ((Outlet.emit layout block packed).final right) := by
  rcases right with ⟨outlet, others⟩
  have hSame : others.index = others.index := rfl
  rcases WatchedSinks.perform_onCapture
    (Capture.byChannel_record outlet.written) h.counted.capture
    hSame with ⟨result, capture, index, hRecord, _, _, hCapture⟩
  have hRecorded := h.reindexed hCapture index
  unfold Step.final
  cases result with
  | error e =>
    refine ⟨[], ?_⟩
    rw [Outlet.perform_emit_of_unrecorded layout block packed
      hRecord, List.append_nil]
    exact hRecorded
  | ok _ =>
    rcases hRecorded.perform_putAll hIdeal (layout block packed)
      with ⟨next, hPut, _, hNext⟩
    have hSnoc := hRecorded.snoc hPieces hNext
    rw [hFrame] at hSnoc
    refine ⟨[part], ?_⟩
    rw [Outlet.perform_emit_of_recorded layout block packed
      hRecord, Step.perform_bind_of_ok hPut]
    exact hSnoc

/- The position of a frame is recorded. -/
theorem carries_emitPart
    {receivers : Receivers WatchedSinks}
    (h :
      right.1.Carries receivers right.2 captured
        (laying.layout parts) (laying.offsets 0 parts))
    (hFrame : laying.isFrame part = true)
    {layout : Bytes → Bytes → List Bytes}
    {block packed : Bytes}
    (hPieces : (layout block packed).flatten = laying.encode part)
    (hSome : 0 < (laying.encode part).length) :
    let emitted := (Outlet.emit layout block packed).final right
    emitted.1.Carries receivers emitted.2 captured
      (laying.layout (parts ++ [part]))
      (laying.offsets 0 (parts ++ [part])) := by
  intro emitted
  rw [← hPieces] at hSome
  rcases h.emit layout block packed hSome with
    ⟨outlet, next, hEmit, hNext⟩
  have hOffsets :
      laying.offsets 0 (parts ++ [part]) =
        laying.offsets 0 parts ++
          [(laying.layout parts).length] := by
    rw [offsets_snoc, if_pos hFrame, Nat.zero_add]
  have hLast : emitted = (outlet, next) := congrArg Prod.snd hEmit
  rw [hLast, hOffsets, layout_append, layout_singleton,
    ← hPieces]
  exact hNext

/- The frame of a part lags. -/
theorem lags_emitPart
    (hTruthful : conduct.Truthful)
    (hFrame : laying.isFrame part = true)
    {layout : Bytes → Bytes → List Bytes}
    {block packed : Bytes}
    (hPieces : (layout block packed).flatten = laying.encode part)
    (hSome : 0 < (laying.encode part).length) :
    (Outlet.emit layout block packed).Lags (Error.isIo · = true)
      (laying.Alike conduct hIdeal index captured)
      (laying.Behind ideal index captured) where
  along := by
    rintro ⟨outlet, sinks⟩ ⟨_, others⟩ ⟨parts, hLevel⟩
    have hOutlet : outlet = _ := hLevel.outlet
    subst hOutlet
    have hLaid := hLevel.laid
    have hEmitted (hIndex : index.Reliable) :=
      carries_emitPart (hLevel.recorded hIndex) hFrame hPieces
        hSome
    rcases WatchedSinks.perform_onCapture
      (Capture.byChannel_record outlet.written)
      hLaid.counted.capture hLevel.indexes with
      ⟨result, capture, sink, hFirst, hSecond, hCaptured,
        hCapture⟩
    have hLaid' := hLaid.reindexed hCapture sink
    have hSome' := hCaptured.trans hLevel.capturing
    unfold Step.final at hEmitted
    cases result with
    | error e =>
      rw [Outlet.perform_emit_of_unrecorded layout block packed
          hFirst,
        Outlet.perform_emit_of_unrecorded layout block packed
          hSecond]
      refine
        Step.overtaken_of_same
          ⟨parts, rfl, rfl, hLevel.data, hLevel.calm, hSome',
            hLaid', ?_⟩
      -- Only an index that may fail refuses a position.
      intro hIndex
      rcases (hLevel.recorded hIndex).onCapture_record with
        ⟨_, _, _, hNever, _⟩
      cases hSecond.symm.trans hNever
    | ok _ =>
      rw [Outlet.perform_emit_of_recorded layout block packed
        hSecond] at hEmitted ⊢
      rw [Outlet.perform_emit_of_recorded layout block packed
        hFirst]
      have hSame :
          ({ sinks with index := sink } : WatchedSinks).index =
            ({ others with index := sink } : WatchedSinks).index :=
        rfl
      rcases overtaken_putAll hTruthful hIdeal
        (layout block packed) hSame hLevel.data hLevel.calm hLaid'
        with
        ⟨next, hRight, _, hNext,
          ⟨last, hLeft, hIndexes, hTaken, hCalm⟩ |
          ⟨kind, n, last, hLess, hLeft, hIndexes, hTaken,
            hFailed⟩⟩
      · have hSnoc := hLaid'.snoc hPieces hNext
        rw [hFrame] at hSnoc
        rw [Step.perform_bind_of_ok hRight] at hEmitted ⊢
        rw [Step.perform_bind_of_ok hLeft]
        exact
          Step.overtaken_of_same
            ⟨parts ++ [part], rfl, hIndexes, hTaken, hCalm,
              hSome', hSnoc, hEmitted⟩
      · have hSnoc := hLaid'.snoc hPieces hNext
        rw [hFrame] at hSnoc
        rw [hPieces] at hLess hTaken
        rw [Step.perform_bind_of_ok hRight,
          Step.perform_bind_of_error hLeft]
        right
        refine
          ⟨.io kind, _, rfl, rfl, hFailed, parts, [part],
            ⟨hLaid.frames, hSome',
              laying.offsets 0 parts ++ [outlet.written], ?_, ?_⟩,
            hSnoc⟩
        · have hWritten :
              outlet.written = (laying.layout parts).length := by
            rw [hLaid.counted.written, hLaid.contents]
          rw [hTaken, hWritten]
          exact .cut_frame hFrame hLess
        · intro hIndex
          rcases (hLevel.recorded hIndex).onCapture_record with
            ⟨_, _, indexed, hRecord, _, hHolds, _, hRecorded⟩
          cases hSecond.symm.trans hRecord
          have hIndexed : sink.contents = indexed :=
            hHolds.2.contents
          rw [hIndexes, hIndexed]
          exact hRecorded
  behind := fun _ _ h =>
    h.onward fun _ hLaid =>
      hLaid.emitPart hIdeal hFrame hPieces

------------------------------------------------------------
-- Flushes
------------------------------------------------------------

/- What is ahead stays ahead by laying out nothing more. -/
theorem Behind.stays
    {next : Outlet WatchedSinks × WatchedSinks}
    (h : laying.Behind ideal index captured left right)
    (hStays :
      ∀ parts,
        laying.LaidOut ideal parts right →
          laying.LaidOut ideal parts next) :
    laying.Behind ideal index captured left next := by
  apply h.onward
  intro parts hLaid
  refine ⟨[], ?_⟩
  rw [List.append_nil]
  exact hStays parts hLaid

theorem LaidOut.flushCapture
    (h : laying.LaidOut ideal parts right) :
    laying.LaidOut ideal parts
      ((Outlet.onCapture Capture.flush).final right) := by
  rcases right with ⟨outlet, others⟩
  have hSame : others.index = others.index := rfl
  rcases WatchedSinks.perform_onCapture Capture.byChannel_flush
    h.counted.capture hSame with
    ⟨result, capture, index, hFlush, _, _, hCapture⟩
  unfold Step.final
  rw [hFlush]
  exact h.reindexed hCapture index

theorem LaidOut.flushChannel
    (h : laying.LaidOut ideal parts right) :
    laying.LaidOut ideal parts
      (Outlet.flushChannel.final right) := by
  rcases right with ⟨outlet, others⟩
  have hCounted := h.counted.flushChannel
  have hHolds : others.data.Holds ideal (laying.layout parts) :=
    ⟨h.contents, h.counted.conduct⟩
  have hChannel : outlet.channel = WatchedSinks.dataChannel :=
    h.counted.channel
  unfold Step.final at hCounted ⊢
  rw [WatchedSinks.perform_flushChannel hChannel] at hCounted ⊢
  exact ⟨hCounted, h.frames, hHolds.flush.contents⟩

theorem lags_flushCapture :
    (Outlet.onCapture Capture.flush).Lags (Error.isIo · = true)
      (laying.Alike conduct hIdeal index captured)
      (laying.Behind ideal index captured) where
  along := by
    rintro ⟨outlet, sinks⟩ ⟨_, others⟩ ⟨parts, hLevel⟩
    have hOutlet : outlet = _ := hLevel.outlet
    subst hOutlet
    rcases WatchedSinks.perform_onCapture Capture.byChannel_flush
      hLevel.laid.counted.capture hLevel.indexes with
      ⟨result, capture, sink, hLeft, hRight, hCaptured, hCapture⟩
    have hLaid := hLevel.laid.reindexed hCapture sink
    have hSome := hCaptured.trans hLevel.capturing
    rw [hLeft, hRight]
    refine
      Step.overtaken_of_same
        ⟨parts, rfl, rfl, hLevel.data, hLevel.calm, hSome, hLaid,
          ?_⟩
    intro hIndex
    rcases (hLevel.recorded hIndex).flushCapture with
      ⟨_, _, hFlush, hFlushed, _⟩
    cases hRight.symm.trans hFlush
    exact hFlushed
  behind := fun _ _ h => h.stays fun _ => LaidOut.flushCapture

theorem lags_flushChannel :
    Outlet.flushChannel.Lags (Error.isIo · = true)
      (laying.Alike conduct hIdeal index captured)
      (laying.Behind ideal index captured) where
  along := by
    rintro ⟨outlet, sinks⟩ ⟨_, others⟩ ⟨parts, hLevel⟩
    have hOutlet : outlet = _ := hLevel.outlet
    subst hOutlet
    have hLaid := hLevel.laid
    have hLaid' := hLaid.flushChannel
    have hOther : others.data.Holds ideal (laying.layout parts) :=
      ⟨hLaid.contents, hLaid.counted.conduct⟩
    have hContents :
        (Sink.flush others.data).2.contents =
          others.data.contents :=
      hOther.flush.contents.trans hOther.contents.symm
    have hData := hLevel.data.flush
    rw [← hContents] at hData
    have hChannel : outlet.channel = WatchedSinks.dataChannel :=
      hLaid.counted.channel
    have hRecorded :
        ∀ hIndex : index.Reliable,
          Outlet.Carries
            (WatchedSinks.receivers hIdeal.1 hIndex)
            (Outlet.flushChannel.final (outlet, others)).1
            (Outlet.flushChannel.final (outlet, others)).2
            captured (laying.layout parts)
            (laying.offsets 0 parts) := by
      intro hIndex
      rcases (hLevel.recorded hIndex).flushChannel with
        ⟨result, next, hFlush, hFlushed, _⟩
      have hFlush' :
          Outlet.flushChannel.perform (outlet, others) =
            (result, outlet, next) :=
        hFlush
      unfold Step.final
      rw [hFlush']
      exact hFlushed
    unfold Step.final at hLaid' hRecorded
    have hRight :=
      WatchedSinks.perform_flushChannel hChannel others
    rw [hOther.flush_ok hIdeal.2] at hRight
    rw [hRight] at hLaid' hRecorded ⊢
    rw [WatchedSinks.perform_flushChannel hChannel]
    cases hFlush : (Sink.flush sinks.data).1 with
    | ok _ =>
      have hCalm :
          (sinks.failed || !(Except.ok () : Except IoKind _).isOk) =
            false := by
        rw [hLevel.calm]
        rfl
      exact
        Step.overtaken_of_same
          ⟨parts, rfl, hLevel.indexes, hData, hCalm,
            hLevel.capturing, hLaid', hRecorded⟩
    | error kind =>
      have hFailed :
          (sinks.failed ||
              !(Except.error kind : Except _ Unit).isOk) =
            true :=
        Bool.or_true _
      rcases hLevel.severed with
        ⟨hFrames, hCaptured, recorded, hRemains, hRecords⟩
      have hKept :
          (Sink.flush sinks.data).2.contents =
            sinks.data.contents :=
        hLevel.data.flush.contents.trans
          hLevel.data.contents.symm
      rw [← hKept] at hRemains
      rw [← List.append_nil parts] at hLaid'
      right
      exact
        ⟨.io kind, _, rfl, rfl, hFailed, parts, [],
          ⟨hFrames, hCaptured, recorded, hRemains, hRecords⟩,
          hLaid'⟩
  behind := fun _ _ h => h.stays fun _ => LaidOut.flushChannel

/- An index is attached to both outlets, or to none. -/
theorem Level.attach
    {outlet attached : Outlet WatchedSinks}
    {sinks others : WatchedSinks}
    (h :
      laying.Level conduct hIdeal index captured parts
        (outlet, sinks) (outlet, others))
    (hAttach :
      outlet.attach WatchedSinks.indexChannel = .ok attached) :
    laying.Level conduct hIdeal index true parts
      (attached, sinks) (attached, others) where
  outlet := rfl
  indexes := h.indexes
  data := h.data
  calm := h.calm
  capturing := by
    rw [(Outlet.parts_of_attach hAttach).2]
    rfl
  laid :=
    { counted := h.laid.counted.attach hAttach
      frames := by
        rw [(Outlet.parts_of_attach hAttach).2]
        exact h.laid.frames
      contents := h.laid.contents }
  recorded := fun hIndex =>
    ((h.recorded hIndex).attach hAttach).1

theorem flushesLag :
    Outlet.FlushesLag (Error.isIo · = true)
      (laying.Alike conduct hIdeal index captured)
      (laying.Behind ideal index captured) where
  same := by
    intro _ _ hAlike
    rcases hAlike with ⟨_, hLevel⟩
    exact hLevel.outlet
  capture := lags_flushCapture
  channel := lags_flushChannel

end Laying

------------------------------------------------------------
-- Writers
------------------------------------------------------------

/- The segments of a container as parts. -/
def Segment.laying : Laying Segment where
  encode := encode
  isFrame := isFrame

/- The frames of a raw stream as parts. -/
def RawStream.laying : Laying PackedBlock where
  encode := PackedBlock.rawEncode
  isFrame := fun _ => true

variable
  {conduct ideal : Conduct} {captured : Bool}

theorem Segment.lags_putHeader
    (hTruthful : conduct.Truthful)
    (hIdeal : ideal.Reliable)
    (index : Conduct)
    (fields : Header) :
    (Outlet.putHeader fields).Lags (Error.isIo · = true)
      (laying.Alike conduct hIdeal index captured)
      (laying.Behind ideal index captured) := by
  have hPut :
      (Outlet.putAll fields.pieces >>= fun _ =>
          pure fields.writtenLength).Lags (Error.isIo · = true)
        (laying.Alike conduct hIdeal index captured)
        (laying.Behind ideal index captured) := by
    have hPieces :
        fields.pieces.flatten = laying.encode (.header fields) :=
      rfl
    exact
      (Laying.lags_putPart hTruthful rfl hPieces).bind fun _ =>
        Step.lags_pure _
  apply Step.Lags.ite _ hPut
  exact (Step.lags_throw _).bind fun _ => hPut

theorem ContainerWriter.lagging_severed
    (hTruthful : conduct.Truthful)
    (hIdeal : ideal.Reliable)
    (index : Conduct)
    (captured : Bool)
    (origin : Regrouper) :
    FrameWriter.Lagging ContainerWriter (Error.isIo · = true)
      (Segment.laying.Alike conduct hIdeal index captured)
      (Segment.laying.Behind ideal index captured) origin := by
  apply lagging
  refine
    { Laying.flushesLag with
      frame := ?_
      header := Segment.lags_putHeader hTruthful hIdeal index
      terminator := ?_ }
  · intro checksums block packed
    have hPieces :
        (Frame.containerPieces checksums block packed).flatten =
          Segment.laying.encode
            (.frame checksums ⟨block, packed⟩) :=
      rfl
    exact
      Laying.lags_emitPart hTruthful rfl hPieces
        (Segment.length_encode_pos
          (.frame checksums ⟨block, packed⟩))
  · have hPieces :
        [Frame.terminator].flatten =
          Segment.laying.encode .terminator :=
      List.append_nil _
    rw [← Outlet.putAll_singleton]
    exact Laying.lags_putPart hTruthful rfl hPieces

theorem RawWriter.lagging_severed
    (hTruthful : conduct.Truthful)
    (hIdeal : ideal.Reliable)
    (index : Conduct)
    (captured : Bool)
    (origin : Regrouper) :
    FrameWriter.Lagging RawWriter (Error.isIo · = true)
      (RawStream.laying.Alike conduct hIdeal index captured)
      (RawStream.laying.Behind ideal index captured)
      origin := by
  apply lagging
  refine { Laying.flushesLag with frame := ?_ }
  intro block packed
  have hPieces :
      (Frame.rawPieces block packed).flatten =
        RawStream.laying.encode ⟨block, packed⟩ :=
    rfl
  exact
    Laying.lags_emitPart hTruthful rfl hPieces
      (PackedBlock.length_rawEncode_pos ⟨block, packed⟩)

end SplitStream
