import SplitStream.Proofs.Raw.Twins
import SplitStream.Proofs.Reader.Tolerance

/-
  Raw streams with a frame that is left out. A call that fails
  in decoding a frame has passed just this frame, and later
  calls are answered as if it had not been there. Bytes that
  are ready are the last bytes of a block of the stream.

  Main declarations:
    * `RawReader.Omits`
    * `RawReader.omits_of_readFrame`
    * `RawReader.HoldsFrame`
    * `RawReader.sound_of_reached`
-/

------------------------------------------------------------
-- Rejected Frames
------------------------------------------------------------

namespace SplitStream

namespace RawReader

open FrameReader Reading

variable {reader next : RawReader}

/- The layout of the frame of a payload. -/
def frameOf
    (plain : Nat)
    (payload : Bytes) : Bytes :=
  Frame.length plain ++ (Frame.length payload.length ++ payload)

/- Parts that are read make up the layout of a frame. -/
theorem yields_readParts
    (codec : Codec) :
    (readParts codec).Yields fun bs parts =>
      ∀ plain payload,
        parts = some (plain, payload) →
          bs = frameOf plain payload ∧
            plain ≤ maxBlockSize ∧
            payload.length ≤ payloadBound codec := by
  unfold readParts
  apply yields_frameStart.andThen
  intro front start hWord
  rcases start with _ | plain
  · exact yields_return (by simp)
  rcases hWord plain rfl with ⟨rfl, _⟩
  unfold readPayload
  apply (yields_number _ 4).andThen
  rintro _ packed ⟨rfl, _⟩
  apply Yields.unless
  intro hPlain
  apply Yields.unless
  intro hBound
  apply (yields_exactly _ packed).andThen
  rintro _ payload ⟨rfl, rfl⟩
  apply yields_return
  rintro _ _ ⟨⟩
  rw [List.append_nil]
  exact
    ⟨rfl, Nat.le_of_not_lt hPlain, Nat.le_of_not_lt hBound⟩

/-
  A call for a frame has failed because of the frame. The
  reader has passed it, and answers like one of a source that
  never had it, unless it is moved from outside.
-/
structure Omits
    (reader next : RawReader)
    (frame tail : Bytes) : Prop where
  rest : reader.source.rest = frame ++ tail
  framed :
    ∃ (plain : Nat) (payload : Bytes),
      frame = frameOf plain payload ∧
      plain ≤ maxBlockSize ∧
      payload.length ≤ payloadBound reader.codec
  ahead : reader.source.Ahead next.source frame.length
  without :
    ∀ (source : Source) (staging : Staging) (calls : List Call),
      source.fault = none →
      source.rest = tail →
      staging.ready = [] →
      (∀ call ∈ calls, call.Stays) →
        replies Call.perform calls
            { reader with source := source, staging := staging } =
          replies Call.perform calls next

/- What fails in decoding is passed, and nothing but it. -/
theorem omits_of_readFrame
    {e : Error}
    (hCodec : reader.codec.Functional)
    (hFault : reader.source.fault = none)
    (hDecoding : e.isDecoding = true)
    (hRead : readFrame.perform reader = (.error e, next)) :
    ∃ frame tail, reader.Omits next frame tail := by
  rw [perform_readFrame_eq, perform_onSource_next] at hRead
  dsimp only at hRead
  rcases hParts : (readParts reader.codec).perform reader.source
    with ⟨other | parts, source⟩
  · rw [hParts] at hRead
    cases hRead
    rcases onward_readParts _ _ _ _ hParts with ⟨_, hBlame⟩
    cases hDecoding.symm.trans (hBlame e rfl)
  rw [hParts] at hRead
  rcases parts with _ | ⟨plain, payload⟩
  · cases hRead
  rcases yields_readParts _ _ _ _ hFault hParts with
    ⟨frame, hFrame, hRest, hAhead⟩
  rcases hFrame plain payload rfl with ⟨rfl, hPlain, hBound⟩
  rcases decode_spec hCodec payload plain with
    ⟨outcome, _, hDecode⟩
  rcases hDecode
    { reader with
      source := source
      staging := reader.staging.clear } rfl with
    ⟨area, hDecoded⟩
  change
    (decode payload plain >>= fun _ => pure true).perform _ = _
    at hRead
  cases outcome with
  | ok block =>
    rw [Step.perform_bind_of_ok hDecoded] at hRead
    cases hRead
  | error other =>
    rw [Step.perform_bind_of_error hDecoded] at hRead
    cases hRead
    refine ⟨frameOf plain payload, source.rest, ?_⟩
    constructor
    · exact hRest
    · exact ⟨plain, payload, rfl, hPlain, hBound⟩
    · exact hAhead
    · intro there staging calls hOther hTail hEmpty hStay
      apply replies_eq fun call hCall =>
        lockstep_call (hStay call hCall)
      exact
        { source := ⟨hOther, hAhead.fault.trans hFault, hTail⟩
          functional := hCodec
          codec := rfl
          ready := hEmpty
          frames := rfl }

------------------------------------------------------------
-- Bytes That Are Ready
------------------------------------------------------------

/-
  What is ready is nothing, or the end of the block of a frame
  of the stream that the codec unpacks to this block.
-/
inductive HoldsFrame
    (reader : RawReader) : Prop where
  | nothing :
      reader.staging.ready = [] → HoldsFrame reader
  | part (content : PackedBlock) (front tail : Bytes) :
      reader.source.content =
        front ++ (content.rawEncode ++ tail) →
      content.RawFits →
      content.packed.length ≤ payloadBound reader.codec →
      reader.codec.Restores content.packed content.block →
      reader.staging.ready <:+ content.block →
        HoldsFrame reader

/- With a functional codec and a source that does not fail. -/
def Sound
    (reader : RawReader) : Prop :=
  reader.codec.Functional →
  reader.source.fault = none →
    reader.HoldsFrame

theorem sound_of_nothing
    (h : reader.staging.ready = []) :
    reader.Sound :=
  fun _ _ => .nothing h

/- A frame that is found is one of the stream. -/
theorem holdsFrame_of_readFrame
    (hCodec : reader.codec.Functional)
    (hFault : reader.source.fault = none)
    (hRead : readFrame.perform reader = (.ok true, next)) :
    next.HoldsFrame := by
  cases movesOver_of_readFrame hFault hRead with
  | @frame content hFits hBound hRest hAhead hNext hReady hFills =>
    have hSame : next.codec = reader.codec := by rw [hNext]
    have hSplit :=
      List.take_append_drop reader.source.position
        reader.source.content
    rw [← reader.source.rest_eq, hRest] at hSplit
    apply HoldsFrame.part content _ _
      (hAhead.content.trans hSplit.symm) hFits
    · rw [hSame]
      exact hBound
    · rw [hSame]
      exact hFills.restores hCodec
    · exact hReady ▸ List.suffix_rfl

/- Every call for a frame keeps to whole frames. -/
theorem sound_readFrame
    {result : Except Error Bool}
    (hRead : readFrame.perform reader = (result, next)) :
    next.Sound := by
  have hFinds := finds_of_readFrame reader
  rw [hRead] at hFinds
  cases hFinds with
  | ended _ _ => exact sound_of_nothing rfl
  | failed e _ _ => exact sound_of_nothing rfl
  | frame _ _ hAhead _ =>
    intro hCodec hFault
    have hQuiet : reader.source.fault = none :=
      hAhead.fault.symm.trans hFault
    have hSame : reader.codec.Functional := hCodec
    exact holdsFrame_of_readFrame hSame hQuiet hRead

theorem sound_further
    (call : FurtherCall) :
    call.action.Lockstep (Itself Sound) fun _ => False := by
  cases call with
  | reset =>
    apply Step.Lockstep.bind
    · apply Step.lockstep_modify
      exact fun _ _ hSame =>
        ⟨by rw [hSame.1], sound_of_nothing rfl⟩
    · exact fun _ => Step.lockstep_pure _
  | seek position =>
    apply Step.Lockstep.bind
    · apply Step.lockstep_modify
      intro left right hSame
      refine ⟨by rw [hSame.1], ?_⟩
      intro hCodec hFault
      rcases left.source.seek_spec position with
        ⟨hContent, hQuiet, _⟩
      cases hSame.2 hCodec (hQuiet.symm.trans hFault) with
      | nothing hNone => exact .nothing hNone
      | part content front tail hSplit hFits hBound hRestores
          hReady =>
        exact
          .part content front tail (hContent.trans hSplit) hFits
            hBound hRestores hReady
    · exact fun _ => Step.lockstep_pure _

/- Handing out bytes leaves the end of what was ready. -/
theorem sound_taken
    (reader : RawReader)
    (n : Nat)
    (hSound : reader.Sound) :
    Sound { reader with staging := (reader.staging.take n).2 } := by
  intro hCodec hFault
  cases hSound hCodec hFault with
  | nothing hNone =>
    apply HoldsFrame.nothing
    change reader.staging.ready.drop n = []
    rw [hNone, List.drop_nil]
  | part content front tail hContent hFits hBound hRestores hReady =>
    exact
      .part content front tail hContent hFits hBound hRestores
        ((List.drop_suffix n _).trans hReady)

/- A reader of a source from its position on. -/
def Opened
    (reader : RawReader) : Prop :=
  ∃ source codec, reader = new source codec

/- In every state that can be reached, whole frames passed. -/
theorem sound_of_reached
    (hReached : Reached Opened Call.perform reader) :
    reader.Sound := by
  apply hReached.keeps
  · rintro _ ⟨source, codec, rfl⟩
    exact sound_of_nothing rfl
  intro before call hSound
  have hTwinned : Twinned (Itself Sound) :=
    twinned_itself
      (fun _ _ _ _ hRead => sound_readFrame hRead)
      sound_taken
  exact
    kept_of_lockstep
      (hTwinned.lockstep fun other _ => sound_further other)
      hSound

end RawReader

end SplitStream
