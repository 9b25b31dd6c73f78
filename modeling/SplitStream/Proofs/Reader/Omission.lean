import SplitStream.Proofs.Reader.Rejection

/-
  Containers with a frame that is left out. A call that fails
  in decoding a frame has passed just this frame, and all
  later calls are answered as if it had not been there. Bytes
  that are ready are always the last bytes of a block that
  passed every check.

  Main declarations:
    * `ContainerReader.Omits`
    * `ContainerReader.omits_of_readFrame`
    * `ContainerReader.HoldsFrame`
    * `ContainerReader.Opened`
    * `ContainerReader.sound_of_reached`
-/

------------------------------------------------------------
-- Rejected Frames
------------------------------------------------------------

namespace SplitStream

namespace ContainerReader

open FrameReader Reading

variable {reader next last : ContainerReader} {passed : Bytes}

/- On its way to a frame, a reader enters members only. -/
theorem Crosses.last_eq
    (hCrosses : reader.Crosses passed last) :
    last =
      { reader with
        header := last.header
        checksums := last.checksums
        stage := .frames } := by
  induction hCrosses with
  | here hStage => rw [← hStage]
  | due _ _ _ _ ih => exact ih
  | member _ _ _ _ _ ih => exact ih

/-
  A frame that could not be decoded: its parts were all read,
  and the reader stands behind them with nothing ready.
-/
theorem rejected_of_decodeFrame
    {plain : Nat}
    {e : Error}
    (hCodec : reader.codec.Functional)
    (hFault : reader.source.fault = none)
    (hDecoding : e.isDecoding = true)
    (hRun : (decodeFrame plain).perform reader = (.error e, next)) :
    ∃ (recorded : Recorded) (source : Source) (area : Scratch),
      recorded.FitsIn reader.checksums plain ∧
      reader.source.rest = recorded.encode ++ source.rest ∧
      reader.source.Ahead source recorded.encode.length ∧
      next =
        { reader with
          source := source
          staging := ⟨area, reader.staging.ready⟩ } := by
  rw [perform_decodeFrame_eq] at hRun
  have hBlame :=
    runs_of_onward (onward_readRecorded reader.checksums plain)
      reader
  rcases hRead :
      (onSource (Recorded.read reader.checksums plain)).perform
        reader with
    ⟨other | recorded, middle⟩
  · rw [Step.perform_bind_of_error hRead] at hRun
    cases hRun
    cases hDecoding.symm.trans (hBlame.of_error hRead)
  rcases ok_of_onSource (Recorded.yields_read _ _) hFault hRead with
    ⟨source, _, rfl, ⟨rfl, hFits⟩, hRest, hAhead⟩
  rcases settle_spec hCodec recorded plain with
    ⟨outcome, _, hSettle⟩
  rcases hSettle { reader with source := source } rfl with
    ⟨area, hSettled⟩
  rw [Step.perform_bind_of_ok hRead, hSettled] at hRun
  cases outcome with
  | ok block => cases hRun
  | error other =>
    cases hRun
    exact ⟨recorded, source, area, hFits, hRest, hAhead, rfl⟩

/-
  A call for a frame has failed because of the frame. The
  reader has passed it, and answers like one of a source that
  goes on behind it, or that never had it.
-/
structure Omits
    (reader next : ContainerReader)
    (passed frame tail : Bytes) : Prop where
  rest : reader.source.rest = passed ++ (frame ++ tail)
  framed :
    ∃ (plain : Nat) (recorded : Recorded),
      frame = Frame.length (plain + 1) ++ recorded.encode ∧
      recorded.FitsIn next.checksums (plain + 1)
  ahead : reader.source.Ahead next.source (passed ++ frame).length
  behind :
    ∀ (source : Source) (staging : Staging) (calls : List Call),
      source.fault = none →
      source.rest = tail →
      staging.ready = [] →
        replies Call.perform calls
            { next with source := source, staging := staging } =
          replies Call.perform calls next
  without :
    ∀ (source : Source) (calls : List Call),
      source.fault = none →
      source.rest = passed ++ tail →
        replies Call.perform (.readFrame :: calls)
            { reader with source := source } =
          replies Call.perform (.readFrame :: calls) next

theorem lockstep_search : search.Lockstep Twins fun _ => False := by
  apply Step.lockstep_get_bind
  · intro left right hTwins
    rw [hTwins.source.remaining]
  · intro left right hTwins
    exact resembling.readFrameRounds _

/- A call for a frame answers by what the search finds. -/
theorem paced_of_search
    {left right : ContainerReader}
    (hSearch :
      Step.Paced Twins (fun _ => False)
        (search.perform (cleared left))
        (search.perform (cleared right))) :
    Step.Paced Twins (fun _ => False)
      ((Call.perform .readFrame).perform left)
      ((Call.perform .readFrame).perform right) := by
  have hCall (reader : ContainerReader) :
      (Call.perform .readFrame).perform reader =
        (search >>= fun found =>
          pure (Answer.found found)).perform (cleared reader) :=
    rfl
  rw [hCall, hCall, Step.perform_bind, Step.perform_bind]
  rcases hSearch with
    ⟨result, s, t, hLeft, hRight, hTwins⟩ | ⟨_, _, _, hLost⟩
  · rw [hLeft, hRight]
    left
    cases result with
    | error e => exact ⟨_, s, t, rfl, rfl, hTwins⟩
    | ok found => exact ⟨_, s, t, rfl, rfl, hTwins⟩
  · exact hLost.elim

/- What fails in decoding is passed, and nothing but it. -/
theorem omits_of_readFrame
    {e : Error}
    (hCodec : reader.codec.Functional)
    (hFault : reader.source.fault = none)
    (hDecoding : e.isDecoding = true)
    (hRead : readFrame.perform reader = (.error e, next)) :
    ∃ passed frame tail, reader.Omits next passed frame tail := by
  rcases attributes _ (cleared reader) hFault _ _ hRead hDecoding
    with
    ⟨last, passed, plain, after, outcome, hMeets, hDecode,
      hResult⟩
  cases outcome with
  | ok done => cases hResult
  | error other =>
    cases hResult
    have hLast := hMeets.crosses.last_eq
    have hSame : last.codec = reader.codec := by rw [hLast]; rfl
    have hNone : last.staging.ready = [] := by rw [hLast]; rfl
    have hMoved := hMeets.ahead
    change reader.source.Ahead after _ at hMoved
    have hQuiet := hMoved.fault.trans hFault
    have hFunctional : (last.facing after).codec.Functional := by
      change last.codec.Functional
      rw [hSame]
      exact hCodec
    rcases rejected_of_decodeFrame hFunctional hQuiet hDecoding
      hDecode with
      ⟨recorded, source, area, hFits, hRest, hAhead, rfl⟩
    change after.rest = _ at hRest
    change after.Ahead source _ at hAhead
    have hQuietNext := hAhead.fault.trans hQuiet
    have hBefore := hMeets.rest
    change reader.source.rest = _ at hBefore
    rw [hRest, ← List.append_assoc (Frame.length _)] at hBefore
    refine
      ⟨passed, Frame.length (plain + 1) ++ recorded.encode,
        source.rest, ?_⟩
    constructor
    · exact hBefore
    · exact ⟨plain, recorded, rfl, hFits⟩
    · simp only [List.length_append, Frame.length,
        Bytes.length_bigEndian]
      rw [← Nat.add_assoc]
      exact hMoved.trans hAhead
    · intro other staging calls hOther hTail hEmpty
      apply replies_eq fun call _ => lockstep_call call
      exact
        { source := ⟨hOther, hQuietNext, hTail⟩
          functional := hFunctional
          codec := rfl
          header := rfl
          checksums := rfl
          ready := hEmpty.trans hNone.symm
          stage := rfl
          follow := rfl
          frames := rfl }
    · intro other calls hOther hTail
      rcases hMeets.crosses.search_facing hOther hTail with
        ⟨there, hSearch, hThere⟩
      apply replies_cons_eq _ fun call _ => lockstep_call call
      apply paced_of_search
      change
        Step.Paced _ _ (search.perform ((cleared reader).facing other))
          _
      rw [hSearch]
      apply lockstep_search
      exact
        { source :=
            ⟨hThere.fault.trans hOther, hQuietNext,
              hThere.rest_of_eq hTail rfl⟩
          functional := hFunctional
          codec := rfl
          header := rfl
          checksums := rfl
          ready := hNone
          stage := rfl
          follow := rfl
          frames := rfl }

------------------------------------------------------------
-- Bytes That Are Ready
------------------------------------------------------------

/-
  What is ready is nothing, or the end of the block of a frame
  of the stream. The frame has passed: its lengths fit, the
  codec unpacks its payload, and all of its checksums are
  those of the block and of the payload.
-/
inductive HoldsFrame
    (reader : ContainerReader) : Prop where
  | nothing :
      reader.staging.ready = [] → HoldsFrame reader
  | part (content : PackedBlock) (front tail : Bytes) :
      reader.source.content =
        front ++ (content.encode reader.checksums ++ tail) →
      content.Fits →
      content.packed.length ≤ content.block.length →
      (content.packed.length < content.block.length →
        reader.codec.Restores content.packed content.block) →
      reader.staging.ready <:+ content.block →
        HoldsFrame reader

/- With a functional codec and a source that does not fail. -/
def Sound
    (reader : ContainerReader) : Prop :=
  reader.codec.Functional →
  reader.source.fault = none →
    reader.HoldsFrame

theorem sound_of_nothing
    (h : reader.staging.ready = []) :
    reader.Sound :=
  fun _ _ => .nothing h

/- A frame that is found is one of the stream. -/
theorem holdsFrame_of_readFrame
    (hCodec : reader.codec.Functional)
    (hFault : reader.source.fault = none)
    (hRead : readFrame.perform reader = (.ok true, next)) :
    next.HoldsFrame := by
  rcases attributes _ (cleared reader) hFault _ _ hRead rfl with
    ⟨last, passed, plain, after, outcome, hMeets, hDecode,
      hResult⟩
  cases outcome with
  | error e => cases hResult
  | ok done =>
    have hMoved := hMeets.ahead
    change reader.source.Ahead after _ at hMoved
    rcases accepted_of_decodeFrame (hMoved.fault.trans hFault)
      hDecode with ⟨content, hLength, hAccepted⟩
    have hLast := hMeets.crosses.last_eq
    have hNext := hAccepted.next_eq
    have hCodecs : next.codec = reader.codec := by
      rw [hNext]
      change last.codec = _
      rw [hLast]
      rfl
    have hChecksums : next.checksums = last.checksums := by
      rw [hNext]
      rfl
    have hContent :
        next.source.content = reader.source.content := by
      rw [hAccepted.ahead.content]
      exact hMoved.content
    have hRest := hMeets.rest
    change reader.source.rest = _ at hRest
    have hBehind := hAccepted.rest
    change after.rest = content.afterLength last.checksums ++ _
      at hBehind
    rw [hBehind, ← List.append_assoc (Frame.length _), ← hLength,
      ← PackedBlock.encode_eq, ← hChecksums] at hRest
    have hSplit :=
      List.take_append_drop reader.source.position
        reader.source.content
    rw [← reader.source.rest_eq, hRest, ← List.append_assoc]
      at hSplit
    apply HoldsFrame.part content _ _ (hContent.trans hSplit.symm)
    · exact
        { block_pos := by omega
          block_le := hAccepted.block_le }
    · exact hAccepted.packed_le
    · intro hLess
      have hFills :
          reader.codec.Fills last.staging.area content := by
        have hUnpacked := hAccepted.unpacked hLess
        have hSame : last.codec = reader.codec := by
          rw [hLast]
          rfl
        rw [← hSame]
        exact hUnpacked
      rw [hCodecs]
      exact hFills.restores hCodec
    · exact hAccepted.ready ▸ List.suffix_rfl

/- Every call for a frame keeps to whole frames. -/
theorem sound_readFrame
    {result : Except Error Bool}
    (hRead : readFrame.perform reader = (result, next)) :
    next.Sound := by
  have hFinds := finds_of_readFrame reader
  rw [hRead] at hFinds
  cases hFinds with
  | ended hGoes _ => exact sound_of_nothing hGoes.ready
  | failed e hGoes => exact sound_of_nothing hGoes.ready
  | @frame middle plain hGoes _ =>
    intro hCodec hFault
    have hSame : middle.codec = reader.codec := hGoes.codec
    rcases hGoes.ahead with ⟨n, hAhead⟩
    apply holdsFrame_of_readFrame _ _ hRead
    · rw [← hSame]
      exact hCodec
    · exact hAhead.fault.symm.trans hFault

/- A reader that was opened at a header or behind one. -/
inductive Opened : ContainerReader → Prop where
  | start {source after : Source} {codec : Codec}
      {reader : ContainerReader} :
      (start codec).perform source = (.ok reader, after) →
        Opened reader
  | resume {source : Source} {header : Header} {codec : Codec}
      {reader : ContainerReader} :
      resume source header codec = .ok reader →
        Opened reader

theorem staging_of_resume
    {source : Source}
    {header : Header}
    {codec : Codec}
    (h : resume source header codec = .ok reader) :
    reader.staging.ready = [] := by
  unfold resume checkMethod at h
  by_cases hMethod : header.method = codec.method
  · rw [if_pos hMethod] at h
    cases h
    rfl
  · rw [if_neg hMethod] at h
    cases h

theorem Opened.sound
    (h : Opened reader) :
    reader.Sound := by
  cases h with
  | resume hResume =>
    exact sound_of_nothing (staging_of_resume hResume)
  | start hStart =>
    unfold ContainerReader.start at hStart
    rcases Step.ok_of_perform_bind hStart with
      ⟨header, middle, _, hRest⟩
    rw [Step.perform_bind_of_ok (Step.perform_get middle),
      Step.perform_ofExcept] at hRest
    rcases Prod.mk.inj hRest with ⟨hResume, _⟩
    exact sound_of_nothing (staging_of_resume hResume)

theorem sound_further
    (call : FurtherCall) :
    call.action.Lockstep (Itself Sound) fun _ => False := by
  cases call with
  | reset =>
    apply Step.Lockstep.bind
    · apply Step.lockstep_modify
      exact fun _ _ hSame =>
        ⟨by rw [hSame.1], sound_of_nothing rfl⟩
    · exact fun _ => Step.lockstep_pure _
  | follow on =>
    apply Step.Lockstep.bind
    · apply Step.lockstep_modify
      intro left right hSame
      refine ⟨by rw [hSame.1], ?_⟩
      intro hCodec hFault
      cases hSame.2 hCodec hFault with
      | nothing hNone => exact .nothing hNone
      | part content front tail hContent hFits hLe hRestores
          hReady =>
        exact
          .part content front tail hContent hFits hLe hRestores
            hReady
    · exact fun _ => Step.lockstep_pure _
  | isFinished =>
    apply Step.lockstep_get_bind
    · exact fun _ _ hSame => by rw [hSame.1]
    · exact fun _ _ _ => Step.lockstep_pure _
  | header =>
    apply Step.lockstep_get_bind
    · exact fun _ _ hSame => by rw [hSame.1]
    · exact fun _ _ _ => Step.lockstep_pure _
  | checksums =>
    apply Step.lockstep_get_bind
    · exact fun _ _ hSame => by rw [hSame.1]
    · exact fun _ _ _ => Step.lockstep_pure _

/- Handing out bytes leaves the end of what was ready. -/
theorem sound_taken
    (reader : ContainerReader)
    (n : Nat)
    (hSound : reader.Sound) :
    Sound { reader with staging := (reader.staging.take n).2 } := by
  intro hCodec hFault
  cases hSound hCodec hFault with
  | nothing hNone =>
    apply HoldsFrame.nothing
    change reader.staging.ready.drop n = []
    rw [hNone, List.drop_nil]
  | part content front tail hContent hFits hLe hRestores hReady =>
    exact
      .part content front tail hContent hFits hLe hRestores
        ((List.drop_suffix n _).trans hReady)

/- In every state that can be reached, whole frames passed. -/
theorem sound_of_reached
    (hReached : Reached Opened Call.perform reader) :
    reader.Sound := by
  apply hReached.keeps fun _ hOpened => hOpened.sound
  intro before call hSound
  have hTwinned : Twinned (Itself Sound) :=
    twinned_itself
      (fun _ _ _ _ hRead => sound_readFrame hRead)
      sound_taken
  exact
    kept_of_lockstep
      (hTwinned.lockstep fun other _ => sound_further other)
      hSound

end ContainerReader

end SplitStream
