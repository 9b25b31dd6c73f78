import SplitStream.Proofs.Raw.Reading
import SplitStream.Proofs.Source.Heredity

/-
  Readers of raw streams over any source. A frame is read
  part by part and then decoded; it takes bytes from the
  source, and the end of a stream is its exhausted source.

  Main declarations:
    * `RawReader.readParts`
    * `RawReader.perform_readFrame_eq`
    * `RawReader.finds_of_readFrame`
    * `RawReader.perform_readFrame_of_exhausted`
-/

------------------------------------------------------------
-- Parts Of Frames
------------------------------------------------------------

namespace SplitStream

namespace RawReader

open FrameReader Reading

variable {reader next : RawReader}

/- Read what follows the length of a block. -/
def readPayload
    (codec : Codec)
    (plain : Nat) : Reading (Option (Nat × Bytes)) := do
  let packed ← frameLength
  if maxBlockSize < plain then
    throw (.corruptFrame (.plainLength plain))
  let bound := payloadBound codec
  if bound < packed then
    throw (.corruptFrame (.packedLength packed bound))
  let payload ← framePayload packed
  return some (plain, payload)

/-
  Read the length of a block and its payload, unless the
  stream is at its end.
-/
def readParts
    (codec : Codec) : Reading (Option (Nat × Bytes)) := do
  match ← frameStart with
  | none => return none
  | some plain => readPayload codec plain

/- Decode the parts of a frame, if there are any. -/
def decodeParts :
    Option (Nat × Bytes) → Action RawReader Bool
  | none => return false
  | some (plain, payload) => do
      decode payload plain
      return true

theorem hereditary_readPayload
    {Holds : ∀ {α : Type}, Reading α → Prop}
    (h : Hereditary Holds)
    (codec : Codec)
    (plain : Nat) :
    Holds (readPayload codec plain) := by
  unfold readPayload
  apply h.of_bind (h.number .frameLength 4)
  intro packed
  apply h.unless rfl
  apply h.unless rfl
  apply h.of_bind (h.of_exactly .framePayload packed)
  intro payload
  exact h.of_pure _

theorem onward_readPayload
    (codec : Codec)
    (plain : Nat) :
    (readPayload codec plain).Onward :=
  hereditary_readPayload hereditary_onward codec plain

theorem onward_readParts
    (codec : Codec) :
    (readParts codec).Onward := by
  unfold readParts
  apply onward_frameStart.bind
  intro start
  rcases start with _ | plain
  · exact onward_pure none
  · exact onward_readPayload codec plain

/- Readings of the source are one reading. -/
theorem perform_onSource_bind
    {α β γ : Type}
    (reading : Reading α)
    (after : α → Reading β)
    (next : β → Action RawReader γ)
    (reader : RawReader) :
    (onSource (reading >>= after) >>= next).perform reader =
      match reading.perform reader.source with
      | (.error e, source) =>
          (.error e, { reader with source := source })
      | (.ok a, source) =>
          (onSource (after a) >>= next).perform
            { reader with source := source } := by
  simp only [onSource, Step.perform_bind, Step.perform_within]
  rcases reading.perform reader.source with ⟨e | a, source⟩
  · rfl
  · rfl

/- What follows a reading of the source. -/
theorem perform_onSource_next
    {α γ : Type}
    (reading : Reading α)
    (next : α → Action RawReader γ)
    (reader : RawReader) :
    (onSource reading >>= next).perform reader =
      match reading.perform reader.source with
      | (.error e, source) =>
          (.error e, { reader with source := source })
      | (.ok a, source) =>
          (next a).perform { reader with source := source } := by
  simp only [onSource, Step.perform_bind, Step.perform_within]
  rcases reading.perform reader.source with ⟨e | a, source⟩
  · rfl
  · rfl

/-
  A frame is decoded by reading its parts first. Both sides
  take the same steps, one reading after another.
-/
theorem perform_readFrame_eq
    (reader : RawReader) :
    readFrame.perform reader =
      (onSource (readParts reader.codec) >>= decodeParts).perform
        { reader with staging := reader.staging.clear } := by
  unfold readFrame readParts readPayload
  rw [Step.perform_bind_of_ok (perform_clear reader),
    perform_onSource_bind, perform_onSource_next]
  dsimp only
  rcases frameStart.perform reader.source with
    ⟨e | _ | plain, s₁⟩
  · rfl
  · rfl
  dsimp only
  rw [perform_onSource_bind, perform_onSource_next]
  dsimp only
  rcases frameLength.perform s₁ with ⟨e | packed, s₂⟩
  · rfl
  dsimp only
  by_cases hPlain : maxBlockSize < plain
  · simp only [hPlain, if_true]
    rfl
  simp only [hPlain, if_false]
  rw [Step.perform_bind_of_ok (Step.perform_get _)]
  dsimp only
  by_cases hBound : payloadBound reader.codec < packed
  · simp only [hBound, if_true]
    rfl
  simp only [hBound, if_false]
  rw [perform_onSource_bind, perform_onSource_next]
  dsimp only
  rcases (framePayload packed).perform s₂ with ⟨e | payload, s₃⟩
  · rfl
  · rfl

------------------------------------------------------------
-- Whole Calls
------------------------------------------------------------

/- Parts that are read take bytes from the source. -/
theorem remaining_of_readParts
    {source after : Source}
    {codec : Codec}
    {frame : Nat × Bytes}
    (hRun :
      (readParts codec).perform source = (.ok (some frame), after)) :
    after.remaining < source.remaining := by
  unfold readParts at hRun
  rcases Step.ok_of_perform_bind hRun with
    ⟨start, middle, hStart, hRest⟩
  rcases start with _ | plain
  · cases hRest
  · have hLess := remaining_of_frameStart hStart
    rcases onward_readPayload codec plain middle after _ hRest with
      ⟨⟨n, hAhead⟩, _⟩
    exact Nat.lt_of_le_of_lt hAhead.remaining_le hLess

/- Without parts the source has come to its end. -/
theorem exhausted_of_readParts
    {source after : Source}
    {codec : Codec}
    (hRun : (readParts codec).perform source = (.ok none, after)) :
    after.Exhausted := by
  unfold readParts at hRun
  rcases Step.ok_of_perform_bind hRun with
    ⟨start, middle, hStart, hRest⟩
  rcases start with _ | plain
  · cases hRest
    exact exhausted_of_frameStart hStart
  · unfold readPayload at hRest
    rcases Step.ok_of_perform_bind hRest with ⟨packed, _, _, h₁⟩
    rcases Step.ok_of_perform_unless h₁ with ⟨_, h₂⟩
    rcases Step.ok_of_perform_unless h₂ with ⟨_, h₃⟩
    rcases Step.ok_of_perform_bind h₃ with ⟨_, _, _, hLast⟩
    cases hLast

/- A payload is decoded, or nothing but the area changes. -/
theorem perform_decode_cases
    (reader : RawReader)
    (payload : Bytes)
    (plain : Nat) :
    ∃ area,
      (∃ e,
        (decode payload plain).perform reader =
          (.error e,
            { reader with
              staging := ⟨area, reader.staging.ready⟩ })) ∨
      (decode payload plain).perform reader =
        (.ok (),
          { reader with
            staging := ⟨area, area.front plain⟩
            frames := reader.frames + 1 }) := by
  rcases reader.staging.decompress_spec reader.codec payload plain
    with ⟨result, hDecompress, _, _⟩
  refine
    ⟨reader.staging.area.overwrite
      ((reader.codec.decompress payload plain).written.take
        plain), ?_⟩
  rw [decode, Step.perform_ofStep, hDecompress]
  rcases result with e | ⟨⟩
  · exact .inl ⟨e, rfl⟩
  · exact .inr rfl

/- What a call for a frame leaves, whatever the source does. -/
inductive Finds
    (reader : RawReader) :
    Except Error Bool × RawReader → Prop where
  | ended {source : Source} {n : Nat} :
      reader.source.Ahead source n →
      source.Exhausted →
        Finds reader
          (.ok false,
            { reader with
              source := source
              staging := reader.staging.clear })
  | frame {source : Source} {n : Nat} (area : Scratch)
      (plain : Nat) :
      reader.source.Ahead source n →
      source.remaining < reader.source.remaining →
        Finds reader
          (.ok true,
            { reader with
              source := source
              staging := ⟨area, area.front plain⟩
              frames := reader.frames + 1 })
  | failed {source : Source} {n : Nat} (e : Error)
      (area : Scratch) :
      reader.source.Ahead source n →
        Finds reader
          (.error e,
            { reader with
              source := source
              staging := ⟨area, []⟩ })

theorem finds_of_readFrame
    (reader : RawReader) :
    reader.Finds (readFrame.perform reader) := by
  rw [perform_readFrame_eq, perform_onSource_next]
  dsimp only
  rcases hParts : (readParts reader.codec).perform reader.source
    with ⟨e | parts, source⟩
  · rcases onward_readParts _ _ _ _ hParts with ⟨⟨n, hAhead⟩, _⟩
    exact .failed e reader.staging.area hAhead
  rcases onward_readParts _ _ _ _ hParts with ⟨⟨n, hAhead⟩, _⟩
  dsimp only
  rcases parts with _ | ⟨plain, payload⟩
  · exact .ended hAhead (exhausted_of_readParts hParts)
  · have hLess := remaining_of_readParts hParts
    rw [decodeParts]
    rcases perform_decode_cases
      { reader with
        source := source
        staging := reader.staging.clear }
      payload plain with ⟨area, ⟨e, hDecode⟩ | hDecode⟩
    · rw [Step.perform_bind_of_error hDecode]
      exact .failed e area hAhead
    · rw [Step.perform_bind_of_ok hDecode]
      exact .frame area plain hAhead hLess

/- At the end of its source, a reader finds the end again. -/
theorem perform_readFrame_of_exhausted
    (hEnd : reader.source.Exhausted) :
    ∃ next, readFrame.perform reader = (.ok false, next) := by
  rcases perform_frameStart_of_exhausted hEnd with
    ⟨source, hStart, _⟩
  have hParts :
      (readParts reader.codec).perform reader.source =
        (.ok none, source) :=
    Step.perform_bind_of_ok hStart
  rw [perform_readFrame_eq, perform_onSource_next]
  dsimp only
  rw [hParts]
  exact ⟨_, rfl⟩

end RawReader

end SplitStream
