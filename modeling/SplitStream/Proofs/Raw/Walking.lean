import SplitStream.Proofs.Raw.Reading
import SplitStream.Proofs.Reader.Tolerance

/-
  Walks over raw streams. Each round decodes one frame. A
  walk that ends cleanly has moved over the layout of frames,
  and before a frame whose bytes are all there only the codec
  and the bound on payloads can stop a reader.

  Main declarations:
    * `RawReader.round`
    * `RawReader.exists_walk`
    * `RawReader.contents_of_walk`
    * `RawReader.Tolerated`
    * `RawReader.runs_readFrame`
-/

------------------------------------------------------------
-- Walks
------------------------------------------------------------

namespace SplitStream

namespace RawReader

open FrameReader Reading

variable {reader next : RawReader}

/- A round finds a frame or the end of the stream. -/
def round : Action RawReader Round :=
  (fun more => if more then .frame else .ended) <$> readFrame

theorem perform_round
    {result : Except Error Bool}
    (hRead : readFrame.perform reader = (result, next)) :
    round.perform reader =
      (result.map fun more => if more then .frame else .ended,
        next) := by
  rw [round, Step.perform_map, hRead]

/- A round that succeeds has decoded a frame or nothing. -/
theorem ok_of_round
    {found : Round}
    (hRound : round.perform reader = (.ok found, next)) :
    ∃ more,
      readFrame.perform reader = (.ok more, next) ∧
      found = if more then .frame else .ended := by
  rcases hRead : readFrame.perform reader with ⟨e | more, later⟩
  · rw [perform_round hRead] at hRound
    cases hRound
  · rw [perform_round hRead] at hRound
    rcases Prod.mk.inj hRound with ⟨hFound, rfl⟩
    cases hFound
    exact ⟨more, rfl, rfl⟩

/- Every frame takes bytes from the source. -/
theorem MovesOver.remaining
    (hMoves : reader.MovesOver next true) :
    next.source.remaining < reader.source.remaining := by
  cases hMoves with
  | @frame content _ _ hRest _ _ _ _ =>
    have hSome := content.length_rawEncode_pos
    rw [Source.remaining_eq, Source.remaining_eq, hRest,
      List.length_append]
    omega

theorem MovesOver.fault
    (hMoves : reader.MovesOver next true) :
    next.source.fault = reader.source.fault := by
  cases hMoves with
  | frame _ _ _ hAhead _ _ _ => exact hAhead.fault

/-
  A reader delivers blocks until it ends or fails, and it
  does so by walking over their frames.
-/
theorem exists_walk
    (n : Nat)
    (reader : RawReader)
    (hFault : reader.source.fault = none)
    (hRest : reader.source.remaining < n) :
    ∃ found failure, Traverses round reader found failure := by
  induction n generalizing reader with
  | zero => exact absurd hRest (Nat.not_lt_zero _)
  | succ n ih =>
    rcases hRead : readFrame.perform reader with
      ⟨e | more, next⟩
    · exact
        ⟨[], some e,
          { walks := .failed (perform_round hRead)
            delivers := .failed hRead }⟩
    have hMoves := movesOver_of_readFrame hFault hRead
    rcases more with _ | _
    · exact
        ⟨[], none,
          { walks := .ended (perform_round hRead)
            delivers := .ended hRead }⟩
    · have hLess := hMoves.remaining
      rcases ih next (hMoves.fault.trans hFault) (by omega) with
        ⟨found, failure, hWalks, hDelivers⟩
      exact
        ⟨_, failure,
          { walks := .frame (perform_round hRead) hWalks
            delivers := .frame hRead hDelivers }⟩

/-
  A walk that ends cleanly has moved over frames, up to the
  end of the source.
-/
theorem contents_of_walk
    {found : List (Nat × Bytes)}
    {failure : Option Error}
    (hWalks : Walks round reader found failure)
    (hClean : failure = none)
    (hFault : reader.source.fault = none) :
    ∃ contents : List PackedBlock,
      (∀ content ∈ contents, content.RawFits) ∧
      reader.source.rest = RawStream.layout contents ∧
      found.map Prod.fst =
        RawStream.offsets reader.source.position contents ∧
      found.map Prod.snd = contents.map PackedBlock.block := by
  induction hWalks with
  | failed _ => cases hClean
  | ended hRound =>
    rcases ok_of_round hRound with ⟨_ | _, hRead, hFound⟩
    · cases movesOver_of_readFrame hFault hRead with
      | last hRest => exact ⟨[], by simp, hRest, rfl, rfl⟩
    · cases hFound
  | member hRound _ _ =>
    rcases ok_of_round hRound with ⟨_ | _, _, hFound⟩
    · cases hFound
    · cases hFound
  | @frame reader next found failure hRound _ ih =>
    rcases ok_of_round hRound with ⟨_ | _, hRead, hFound⟩
    · cases hFound
    have hMoves := movesOver_of_readFrame hFault hRead
    rcases ih hClean (hMoves.fault.trans hFault) with
      ⟨contents, hFits, hLayout, hPositions, hBlocks⟩
    change next.source.rest = _ at hLayout
    change _ = RawStream.offsets next.source.position _
      at hPositions
    cases hMoves with
    | @frame content hFit _ hRest hAhead _ hReady _ =>
      refine ⟨content :: contents, ?_, ?_, ?_, ?_⟩
      · intro later hLater
        rcases List.mem_cons.mp hLater with rfl | hLater
        · exact hFit
        · exact hFits later hLater
      · rw [hRest, hLayout, RawStream.layout_cons]
      · rw [List.map_cons, hPositions, hAhead.position]
        rfl
      · rw [List.map_cons, List.map_cons, hBlocks, ← hReady]
        rfl

------------------------------------------------------------
-- Tolerated Errors
------------------------------------------------------------

/-
  The errors that do not concern the structure of a stream.
  A payload may also be longer than the reader allows.
-/
inductive Tolerated
    (codec : Codec) : Error → Prop where
  | codec (status : CodecStatus) (reason : String) :
      Tolerated codec (.codec status reason)
  | length (expected actual : Nat) :
      Tolerated codec (.lengthMismatch expected actual)
  | bound {packed : Nat} :
      payloadBound codec < packed →
        Tolerated codec
          (.corruptFrame
            (.packedLength packed (payloadBound codec)))

theorem runs_onSource
    {α : Type}
    {Allowed : Error → Prop}
    {reading : Reading α}
    {bs tail : Bytes}
    {a : α}
    (hReading : reading.Consumes bs a)
    (reader : RawReader)
    (hFault : reader.source.fault = none)
    (hRest : reader.source.rest = bs ++ tail) :
    (onSource reading).Runs Allowed reader fun b next =>
      b = a ∧
        ∃ source,
          next = { reader with source := source } ∧
          reader.source.Ahead source bs.length ∧
          source.rest = tail :=
  hReading.runs hFault hRest

/- A payload is decoded, or the codec refuses it. -/
theorem runs_decode
    (payload : Bytes)
    (plain : Nat) :
    (decode payload plain).Runs (Tolerated reader.codec) reader
      fun _ next =>
        next.source = reader.source ∧
          next.codec = reader.codec := by
  rcases reader.staging.decompress_spec reader.codec payload
    plain with ⟨result, hDecompress, _, hBlame⟩
  rw [Step.Runs, decode, Step.perform_ofStep, hDecompress]
  rcases result with e | ⟨⟩
  · rcases hBlame e rfl with ⟨_, _, rfl⟩ | ⟨_, rfl⟩
    · exact .codec _ _
    · exact .length _ _
  · exact ⟨rfl, rfl⟩

/-
  A frame whose bytes are all there is decoded, unless the
  payload is too long or the codec refuses it.
-/
theorem runs_readFrame
    {plain : Nat}
    {payload tail : Bytes}
    (hPlain : plain ≤ maxBlockSize)
    (hSmall : payload.length < Bytes.wordCount 4)
    (hFault : reader.source.fault = none)
    (hRest :
      reader.source.rest =
        Frame.length plain ++
          (Frame.length payload.length ++ (payload ++ tail))) :
    readFrame.Runs (Tolerated reader.codec) reader
      fun more next =>
        more = true ∧
          next.source.rest = tail ∧
          next.codec = reader.codec := by
  rw [Step.Runs, readFrame,
    Step.perform_bind_of_ok (perform_clear reader), ← Step.Runs]
  apply (runs_onSource (consumes_frameStart (lt_wordCount hPlain))
    { reader with staging := reader.staging.clear } hFault
    hRest).bind
  rintro _ _ ⟨rfl, s₁, rfl, hAhead₁, hRest₁⟩
  have hFault₁ := hAhead₁.fault.trans hFault
  apply (runs_onSource (consumes_frameLength hSmall) _ hFault₁
    hRest₁).bind
  rintro _ _ ⟨rfl, s₂, rfl, hAhead₂, hRest₂⟩
  have hFault₂ := hAhead₂.fault.trans hFault₁
  rw [if_neg (Nat.not_lt.mpr hPlain)]
  apply (Step.runs_get _).bind
  rintro _ _ ⟨rfl, rfl⟩
  dsimp only
  by_cases hBound : payloadBound reader.codec < payload.length
  · rw [if_pos hBound]
    exact
      Step.runs_of_error
        (Step.perform_bind_of_error (Step.perform_throw _ _))
        (.bound hBound)
  rw [if_neg hBound]
  apply (runs_onSource (consumes_exactly _ rfl) _ hFault₂
    hRest₂).bind
  rintro _ _ ⟨rfl, s₃, rfl, _, hRest₃⟩
  apply (runs_decode _ _).bind
  rintro ⟨⟩ last ⟨hSource, hCodec⟩
  exact
    Step.runs_of_ok (Step.perform_pure _ _)
      ⟨rfl, by rw [hSource, hRest₃], hCodec⟩

end RawReader

end SplitStream
