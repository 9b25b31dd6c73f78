import SplitStream.Proofs.Raw.Layout
import SplitStream.Proofs.Reader.Walking

/-
  Readers of raw streams. A reader that decodes a frame has
  moved over its layout, and before the layout of frames that
  its codec unpacks it delivers their blocks. Nothing tells
  how many frames there are, so the end of the source behind
  any frame is a clean end.

  Main declarations:
    * `RawReader.MovesOver`
    * `RawReader.movesOver_of_readFrame`
    * `RawReader.perform_readFrame_of_fits`
    * `RawReader.perform_readFrame_of_frame`
    * `RawReader.perform_readFrame_of_end`
    * `RawReader.Readable`
    * `RawReader.Before`
    * `RawReader.delivers_of_before`
    * `RawReader.ReadsTo`
    * `RawReader.readsTo_of_contents`
-/

------------------------------------------------------------
-- Decoded Frames
------------------------------------------------------------

namespace SplitStream

namespace RawReader

open FrameReader Reading

variable {reader next : RawReader}

theorem ok_of_onSource
    {α : Type}
    {reading : Reading α}
    {StandsFor : Bytes → α → Prop}
    {a : α}
    (hReading : reading.Yields StandsFor)
    (hRun :
      (onSource reading).perform reader = (.ok a, next))
    (hFault : reader.source.fault = none) :
    ∃ source bs,
      next = { reader with source := source } ∧
      StandsFor bs a ∧
      reader.source.rest = bs ++ source.rest ∧
      reader.source.Ahead source bs.length :=
  hReading.within hFault hRun

theorem perform_onSource
    {α : Type}
    {reading : Reading α}
    {bs tail : Bytes}
    {a : α}
    (hReading : reading.Consumes bs a)
    (reader : RawReader)
    (hFault : reader.source.fault = none)
    (hRest : reader.source.rest = bs ++ tail) :
    ∃ source,
      (onSource reading).perform reader =
        (.ok a, { reader with source := source }) ∧
      reader.source.Ahead source bs.length :=
  hReading.within reader hFault hRest

theorem perform_clear
    (reader : RawReader) :
    clear.perform reader =
      (.ok ⟨⟩,
        { reader with staging := reader.staging.clear }) :=
  rfl

/- What a reader of raw streams has moved over. -/
inductive MovesOver
    (reader next : RawReader) : Bool → Prop where
  | last :
      reader.source.rest = [] → MovesOver reader next false
  | frame {content : PackedBlock} :
      content.RawFits →
      content.packed.length ≤ payloadBound reader.codec →
      reader.source.rest =
        content.rawEncode ++ next.source.rest →
      reader.source.Ahead next.source
        content.rawEncode.length →
      next =
        { reader with
          source := next.source
          staging := next.staging
          frames := reader.frames + 1 } →
      next.staging.ready = content.block →
      reader.codec.Fills reader.staging.area content →
        MovesOver reader next true

/- A payload is decoded if the codec reports the length. -/
theorem ok_of_decode
    {payload : Bytes}
    {plain : Nat}
    (hRun :
      (decode payload plain).perform reader = (.ok (), next)) :
    (reader.codec.decompress payload plain).report = .ok plain ∧
      next =
        { reader with
          staging :=
            (reader.staging.copy
              ((reader.codec.decompress payload
                plain).written.take plain)).commit plain
          frames := reader.frames + 1 } := by
  rcases reader.staging.decompress_spec reader.codec payload
    plain with ⟨result, hDecompress, hReport, _⟩
  simp only [decode, Step.perform_ofStep, hDecompress] at hRun
  rcases result with e | ⟨⟩
  · cases hRun
  · cases hRun
    exact ⟨hReport rfl, rfl⟩

/- A reader that goes on has moved over what it has found. -/
theorem movesOver_of_readFrame
    {more : Bool}
    (hFault : reader.source.fault = none)
    (hRun : readFrame.perform reader = (.ok more, next)) :
    MovesOver reader next more := by
  rw [readFrame,
    Step.perform_bind_of_ok (perform_clear reader)] at hRun
  rcases Step.ok_of_perform_bind hRun with
    ⟨start, _, hStart, hRun₁⟩
  rcases start with _ | plain
  · cases hRun₁
    rcases Prod.mk.inj hStart with ⟨hNone, _⟩
    exact .last (rest_of_frameStart hFault (Prod.ext hNone rfl))
  rcases ok_of_onSource yields_frameStart hStart hFault with
    ⟨s₁, _, rfl, hWord, hRest₁, hAhead₁⟩
  rcases hWord plain rfl with ⟨rfl, _⟩
  have hFault₁ := hAhead₁.fault.trans hFault
  rcases Step.ok_of_perform_bind hRun₁ with
    ⟨packed, _, hLength, hRun₂⟩
  rcases ok_of_onSource (yields_number _ 4) hLength hFault₁ with
    ⟨s₂, _, rfl, ⟨rfl, hSmall⟩, hRest₂, hAhead₂⟩
  have hFault₂ := hAhead₂.fault.trans hFault₁
  rcases Step.ok_of_perform_unless hRun₂ with ⟨hPlain, hGet⟩
  rw [Step.perform_bind_of_ok (Step.perform_get _)] at hGet
  rcases Step.ok_of_perform_unless hGet with ⟨hBound, hMore⟩
  rcases Step.ok_of_perform_bind hMore with
    ⟨_, _, hPayload, hRun₃⟩
  rcases ok_of_onSource (yields_exactly _ packed) hPayload hFault₂
    with ⟨s₃, payload, rfl, ⟨rfl, rfl⟩, hRest₃, hAhead₃⟩
  rcases Step.ok_of_perform_bind hRun₃ with
    ⟨⟨⟩, _, hDecode, hLast⟩
  cases hLast
  rcases ok_of_decode hDecode with ⟨hReport, rfl⟩
  let block :=
    (reader.staging.area.overwrite
      ((reader.codec.decompress payload plain).written.take
        plain)).front plain
  have hBlock : block.length = plain := Scratch.length_front _ _
  have hFits : (PackedBlock.mk block payload).RawFits :=
    ⟨hBlock ▸ Nat.le_of_not_lt hPlain, hSmall⟩
  refine
    .frame hFits (Nat.le_of_not_lt hBound) ?_ ?_ rfl rfl ?_
  · change s₁.rest = _ at hRest₂
    change s₂.rest = _ at hRest₃
    rw [PackedBlock.rawEncode_eq, hBlock, hRest₁, hRest₂,
      hRest₃]
    simp only [List.append_assoc]
    rfl
  · rw [PackedBlock.rawEncode_eq, hBlock]
    simp only [List.length_append]
    exact hAhead₁.trans (hAhead₂.trans hAhead₃)
  · unfold Codec.Fills
    simp only [hBlock]
    exact ⟨hReport, rfl⟩

/- A payload that the codec restores is decoded to its block. -/
theorem perform_decode
    (reader : RawReader)
    (content : PackedBlock)
    (hRestores :
      reader.codec.Restores content.packed content.block) :
    ∃ area,
      (decode content.packed content.block.length).perform
          reader =
        (.ok (),
          { reader with
            staging := { area := area, ready := content.block }
            frames := reader.frames + 1 }) := by
  refine ⟨(reader.staging.copy content.block).area, ?_⟩
  simp [decode, Staging.decompress, hRestores.report,
    hRestores.written, Staging.commit, Staging.copy]

/-
  The longest payload that a reader can be told of, in a word
  of four bytes, and allows.
-/
def longestPayload
    (codec : Codec) : Nat :=
  min (payloadBound codec) (Bytes.wordCount 4 - 1)

/-
  A frame that a reader decodes: it can be told the lengths,
  allows the payload, and has a codec that unpacks it.
-/
structure Readable
    (codec : Codec)
    (content : PackedBlock) : Prop where
  fits : content.RawFits
  bound_le : content.packed.length ≤ payloadBound codec
  restores : codec.Restores content.packed content.block

/-
  A frame of allowed lengths is read whole, whatever is in
  it, and its payload is handed to the codec.
-/
theorem perform_readFrame_of_fits
    (reader : RawReader)
    (content : PackedBlock)
    {tail : Bytes}
    (hFits : content.RawFits)
    (hBound : content.packed.length ≤ payloadBound reader.codec)
    (hFault : reader.source.fault = none)
    (hRest : reader.source.rest = content.rawEncode ++ tail) :
    ∃ source,
      readFrame.perform reader =
        (decode content.packed content.block.length >>= fun _ =>
            pure true).perform
          { reader with
            source := source
            staging := reader.staging.clear } ∧
      reader.source.Ahead source content.rawEncode.length := by
  have hPlain := hFits.block_le
  simp only [PackedBlock.rawEncode_eq, List.append_assoc]
    at hRest
  rcases perform_onSource
    (consumes_frameStart (lt_wordCount hPlain))
    { reader with staging := reader.staging.clear } hFault hRest
    with ⟨s₁, hStart, hAhead₁⟩
  have hRest₁ := hAhead₁.rest_of_eq hRest rfl
  have hFault₁ := hAhead₁.fault.trans hFault
  rcases perform_onSource (consumes_frameLength hFits.packed_lt)
    { reader with
      source := s₁
      staging := reader.staging.clear } hFault₁ hRest₁ with
    ⟨s₂, hLength, hAhead₂⟩
  have hRest₂ := hAhead₂.rest_of_eq hRest₁ rfl
  have hFault₂ := hAhead₂.fault.trans hFault₁
  rcases perform_onSource
    (consumes_exactly (.truncated .framePayload) rfl)
    { reader with
      source := s₂
      staging := reader.staging.clear } hFault₂ hRest₂ with
    ⟨s₃, hPayload, hAhead₃⟩
  refine ⟨s₃, ?_, ?_⟩
  · rw [readFrame,
      Step.perform_bind_of_ok (perform_clear reader),
      Step.perform_bind_of_ok hStart]
    apply (Step.perform_bind_of_ok hLength).trans
    rw [if_neg (Nat.not_lt.mpr hPlain),
      Step.perform_bind_of_ok (Step.perform_get _)]
    dsimp only
    rw [if_neg (Nat.not_lt.mpr hBound)]
    exact Step.perform_bind_of_ok hPayload
  · rw [PackedBlock.rawEncode_eq]
    simp only [List.length_append]
    exact hAhead₁.trans (hAhead₂.trans hAhead₃)

/- Before a frame, a reader decodes it. -/
theorem perform_readFrame_of_frame
    (reader : RawReader)
    (content : PackedBlock)
    {tail : Bytes}
    (hReadable : Readable reader.codec content)
    (hFault : reader.source.fault = none)
    (hRest : reader.source.rest = content.rawEncode ++ tail) :
    ∃ source area,
      readFrame.perform reader =
        (.ok true,
          { reader with
            source := source
            staging := { area := area, ready := content.block }
            frames := reader.frames + 1 }) ∧
      reader.source.Ahead source content.rawEncode.length := by
  rcases hReadable with ⟨hFits, hBound, hRestores⟩
  rcases reader.perform_readFrame_of_fits content hFits hBound
    hFault hRest with ⟨source, hRead, hAhead⟩
  rcases perform_decode
    { reader with
      source := source
      staging := reader.staging.clear } content hRestores with
    ⟨area, hDecode⟩
  refine ⟨source, area, ?_, hAhead⟩
  rw [hRead]
  exact Step.perform_bind_of_ok hDecode

/- At the end of its source, a reader ends. -/
theorem perform_readFrame_of_end
    (reader : RawReader)
    (hFault : reader.source.fault = none)
    (hRest : reader.source.rest = []) :
    ∃ next,
      readFrame.perform reader = (.ok false, next) ∧
      next.frames = reader.frames := by
  rcases perform_frameStart_of_end reader.source hFault hRest with
    ⟨source, hStart⟩
  refine
    ⟨{ reader with
        source := source
        staging := reader.staging.clear }, ?_, rfl⟩
  rw [readFrame, Step.perform_bind_of_ok (perform_clear reader)]
  refine (Step.perform_bind_of_ok (a := none) ?_).trans rfl
  simp [onSource, hStart]

------------------------------------------------------------
-- Whole Streams
------------------------------------------------------------

/-
  A reader stands before frames that its codec unpacks, and
  there is nothing behind them.
-/
structure Before
    (reader : RawReader)
    (contents : List PackedBlock) : Prop where
  fault : reader.source.fault = none
  rest : reader.source.rest = RawStream.layout contents
  readable : ∀ content ∈ contents, Readable reader.codec content

/- The blocks are delivered one after another. -/
theorem delivers_of_before
    {contents : List PackedBlock}
    (hBefore : reader.Before contents) :
    Delivers reader (contents.map PackedBlock.block) none := by
  induction contents generalizing reader with
  | nil =>
    rcases perform_readFrame_of_end reader hBefore.fault
      hBefore.rest with ⟨next, hRead, _⟩
    exact .ended hRead
  | cons content contents ih =>
    rcases perform_readFrame_of_frame reader content
      (hBefore.readable content List.mem_cons_self)
      hBefore.fault hBefore.rest with
      ⟨source, area, hRead, hAhead⟩
    refine .frame hRead (ih ?_)
    exact
      { fault := hAhead.fault.trans hBefore.fault
        rest := hAhead.rest_of_eq hBefore.rest rfl
        readable := fun later hLater =>
          hBefore.readable later
            (List.mem_cons_of_mem _ hLater) }

end RawReader

------------------------------------------------------------
-- Collected Blocks
------------------------------------------------------------

namespace RawReader

open FrameReader

/-
  All blocks are collected, without a failure. There must be
  a round for each frame, and one for the end.
-/
theorem drainRounds_of_before
    {contents : List PackedBlock}
    (n : Nat)
    (reader : RawReader)
    (got : Tape)
    (hBefore : reader.Before contents)
    (hRounds : contents.length < n) :
    ∃ bytes next,
      drainRounds n reader got = ⟨bytes, none, next⟩ ∧
      bytes.toBytes = got.toBytes ++ RawStream.data contents ∧
      next.frames = reader.frames + contents.length := by
  induction contents generalizing n reader got with
  | nil =>
    cases n with
    | zero => cases hRounds
    | succ n =>
      rcases perform_readFrame_of_end reader hBefore.fault
        hBefore.rest with ⟨next, hRead, hFrames⟩
      exact
        ⟨got, next, drainRounds_of_ended n got hRead,
          (List.append_nil _).symm, hFrames⟩
  | cons content contents ih =>
    cases n with
    | zero => cases hRounds
    | succ n =>
      rcases perform_readFrame_of_frame reader content
        (hBefore.readable content List.mem_cons_self)
        hBefore.fault hBefore.rest with
        ⟨source, area, hRead, hAhead⟩
      let cleared : RawReader :=
        { reader with
          source := source
          staging := { area := area, ready := [] }
          frames := reader.frames + 1 }
      have hCleared : cleared.Before contents :=
        { fault := hAhead.fault.trans hBefore.fault
          rest := hAhead.rest_of_eq hBefore.rest rfl
          readable := fun later hLater =>
            hBefore.readable later
              (List.mem_cons_of_mem _ hLater) }
      rcases ih n cleared (got.append content.block) hCleared
        (Nat.lt_of_succ_lt_succ hRounds) with
        ⟨bytes, next, hDrain, hBytes, hFrames⟩
      refine
        ⟨bytes, next,
          (drainRounds_of_frame n got hRead).trans hDrain, ?_,
          ?_⟩
      · rw [hBytes, Tape.toBytes_append, List.append_assoc,
          RawStream.data_cons]
      · rw [hFrames, List.length_cons]
        change reader.frames + 1 + contents.length = _
        omega

/- What a reader of a raw stream collects from some bytes. -/
def collect
    (codec : Codec)
    (schedule : Schedule)
    (bytes : Bytes) : Collected RawReader :=
  readToEnd
    (new (Source.atPosition bytes 0 none schedule) codec)

/-
  The bytes are read to a clean end, in whatever pieces they
  come, and some data is found in a number of frames.
-/
def ReadsTo
    (codec : Codec)
    (bytes data : Bytes)
    (frames : Nat) : Prop :=
  ∀ schedule,
    (collect codec schedule bytes).failure = none ∧
      (collect codec schedule bytes).bytes.toBytes = data ∧
      (collect codec schedule bytes).reader.frames = frames

/- Frames that a codec unpacks are read to the end. -/
theorem readsTo_of_contents
    {codec : Codec}
    {contents : List PackedBlock}
    (hReadable :
      ∀ content ∈ contents, Readable codec content) :
    ReadsTo codec (RawStream.layout contents)
      (RawStream.data contents) contents.length := by
  intro schedule
  let reader :=
    new
      (Source.atPosition (RawStream.layout contents) 0 none
        schedule)
      codec
  have hBefore : reader.Before contents :=
    { fault := rfl
      rest := List.drop_zero
      readable := hReadable }
  have hRounds : contents.length < rounds reader :=
    Nat.lt_succ_of_le (RawStream.length_le_layout contents)
  rcases drainRounds_of_before (rounds reader) reader
    (.ofBytes []) hBefore hRounds with
    ⟨bytes, next, hDrain, hBytes, hFrames⟩
  have hCollect :
      collect codec schedule (RawStream.layout contents) =
        ⟨bytes, none, next⟩ :=
    hDrain
  rw [hCollect]
  refine ⟨rfl, ?_, ?_⟩
  · rw [hBytes, Tape.toBytes_ofBytes, List.nil_append]
  · exact hFrames.trans (Nat.zero_add _)

end RawReader

end SplitStream
