import Mathlib
import SplitStream.Proofs.Codec.Lossless
import SplitStream.Proofs.Raw.Omission
import SplitStream.Proofs.Reader.Omission

/-
  Bad frames in streams of both framings. A call for a frame
  that fails hands out nothing and counts nothing, and where
  a frame is to blame for it, the frame is all that is lost.

  Main declarations:
    * `FrameReader.Spares`
    * `FrameReader.bad_frames_cost_themselves`
    * `FrameReader.bad_frames_cost_themselves_of_samples`
-/

------------------------------------------------------------
-- Calls That Fail
------------------------------------------------------------

namespace SplitStream

/- A call has left nothing ready, and has counted nothing. -/
structure FrameReader.Spares
    {ρ : Type}
    [FrameReader ρ]
    (reader next : ρ) : Prop where
  available : available next = 0
  needsFrame : needsFrame next = true
  frames : frames next = frames reader

open FrameReader

theorem ContainerReader.spares_of_readFrame
    {reader next : ContainerReader}
    {e : Error}
    (hRead : readFrame.perform reader = (.error e, next)) :
    Spares reader next := by
  have hFinds := finds_of_readFrame reader
  rw [hRead] at hFinds
  cases hFinds with
  | failed _ hGoes =>
    exact
      { available := List.length_eq_zero_iff.mpr hGoes.ready
        needsFrame := List.isEmpty_iff.mpr hGoes.ready
        frames := hGoes.frames }

theorem RawReader.spares_of_readFrame
    {reader next : RawReader}
    {e : Error}
    (hRead : readFrame.perform reader = (.error e, next)) :
    Spares reader next := by
  have hFinds := finds_of_readFrame reader
  rw [hRead] at hFinds
  cases hFinds with
  | failed _ _ _ =>
    exact { available := rfl, needsFrame := rfl, frames := rfl }

------------------------------------------------------------
-- Frames That Fail
------------------------------------------------------------

namespace FrameReader

/-
  Over a source that does not fail, and with a codec that has
  written what it reports, every reader that can be reached
  has bytes ready of checked frames only. A call for a frame
  that fails spares everything, and if a frame is to blame
  the stream goes on as if it had been left out.
-/
theorem bad_frames_cost_themselves :
    (∀ reader : ContainerReader,
      Reached ContainerReader.Opened
        ContainerReader.Call.perform reader →
      reader.codec.Functional →
      reader.source.fault = none →
        reader.HoldsFrame ∧
        ∀ (e : Error) (next : ContainerReader),
          ContainerReader.readFrame.perform reader =
              (.error e, next) →
            Spares reader next ∧
            (e.isDecoding = true →
              ∃ passed frame tail,
                reader.Omits next passed frame tail)) ∧
    ∀ reader : RawReader,
      Reached RawReader.Opened RawReader.Call.perform reader →
      reader.codec.Functional →
      reader.source.fault = none →
        reader.HoldsFrame ∧
        ∀ (e : Error) (next : RawReader),
          RawReader.readFrame.perform reader =
              (.error e, next) →
            Spares reader next ∧
            (e.isDecoding = true →
              ∃ frame tail, reader.Omits next frame tail) := by
  constructor
  · intro reader hReached hCodec hFault
    constructor
    · exact
        ContainerReader.sound_of_reached hReached hCodec hFault
    · intro e next hRead
      exact
        ⟨ContainerReader.spares_of_readFrame hRead,
          fun hDecoding =>
            ContainerReader.omits_of_readFrame hCodec hFault
              hDecoding hRead⟩
  · intro reader hReached hCodec hFault
    constructor
    · exact RawReader.sound_of_reached hReached hCodec hFault
    · intro e next hRead
      exact
        ⟨RawReader.spares_of_readFrame hRead,
          fun hDecoding =>
            RawReader.omits_of_readFrame hCodec hFault hDecoding
              hRead⟩

/- A call fails in decoding a frame. -/
def failsInDecoding {ρ : Type} : Except Error Bool × ρ → Bool
  | (.error e, _) => e.isDecoding
  | (.ok _, _) => false

theorem error_of_failsInDecoding
    {ρ : Type}
    {outcome : Except Error Bool × ρ}
    (h : failsInDecoding outcome = true) :
    ∃ e next, outcome = (.error e, next) ∧ e.isDecoding = true := by
  rcases outcome with ⟨e | found, next⟩
  · exact ⟨e, next, rfl, h⟩
  · cases h

/-
  A container of runs: a frame, another one that holds a run
  of no bytes, and a third one.
-/
def sampleContainer : Bytes :=
  [0, 0, 0, 3, 0, 0, 0, 2, 3, 97, 0, 0, 0, 3, 0, 0, 0, 2, 0, 98,
    0, 0, 0, 3, 0, 0, 0, 2, 3, 99, 0, 0, 0, 0]

/- A reader that has handed out one byte of the first frame. -/
def sampleReader : ContainerReader :=
  (ContainerReader.Call.perform (.read 1)).final
    { source := .ofBytes sampleContainer
      codec := .runLength
      header := .new 80 7 0 0
      checksums := .ofFlags 0
      staging := .empty
      stage := .frames
      followMembers := false
      frames := 0 }

/- The same frames in a raw stream; the second one is short. -/
def sampleStream : Bytes :=
  [0, 0, 0, 3, 0, 0, 0, 2, 3, 97, 0, 0, 0, 3, 0, 0, 0, 2, 2, 98,
    0, 0, 0, 3, 0, 0, 0, 2, 3, 99]

def sampleRawReader : RawReader :=
  (RawReader.Call.perform (.read 1)).final
    (.new (.ofBytes sampleStream) .runLength)

/- Two bytes are ready, and the frame behind them is bad. -/
theorem bad_frames_cost_themselves_of_samples :
    (∃ e next passed frame tail,
      available sampleReader = 2 ∧
      sampleReader.HoldsFrame ∧
      ContainerReader.readFrame.perform sampleReader =
        (.error e, next) ∧
      e.isDecoding = true ∧
      Spares sampleReader next ∧
      sampleReader.Omits next passed frame tail) ∧
    ∃ e next frame tail,
      available sampleRawReader = 2 ∧
      sampleRawReader.HoldsFrame ∧
      RawReader.readFrame.perform sampleRawReader =
        (.error e, next) ∧
      e.isDecoding = true ∧
      Spares sampleRawReader next ∧
      sampleRawReader.Omits next frame tail := by
  constructor
  · have hFails :
        failsInDecoding
            (ContainerReader.readFrame.perform sampleReader) =
          true := by
      cbv
    rcases error_of_failsInDecoding hFails with
      ⟨e, next, hRead, hDecoding⟩
    have hResume :
        ContainerReader.resume (.ofBytes sampleContainer)
            (.new 80 7 0 0) .runLength =
          .ok _ :=
      rfl
    have hReached :
        Reached ContainerReader.Opened
          ContainerReader.Call.perform sampleReader := by
      apply Reached.called
      apply Reached.opened
      exact .resume hResume
    have hCodec : sampleReader.codec = .runLength := by cbv
    rcases bad_frames_cost_themselves.1 sampleReader hReached
      (hCodec ▸ Codec.runLength_functional) (by cbv) with
      ⟨hHolds, hCalls⟩
    rcases hCalls e next hRead with ⟨hSpares, hOmits⟩
    rcases hOmits hDecoding with ⟨passed, frame, tail, hOmitted⟩
    exact
      ⟨e, next, passed, frame, tail, by cbv, hHolds, hRead,
        hDecoding, hSpares, hOmitted⟩
  · have hFails :
        failsInDecoding
            (RawReader.readFrame.perform sampleRawReader) =
          true := by
      cbv
    rcases error_of_failsInDecoding hFails with
      ⟨e, next, hRead, hDecoding⟩
    have hReached :
        Reached RawReader.Opened RawReader.Call.perform
          sampleRawReader := by
      apply Reached.called
      apply Reached.opened
      exact ⟨_, _, rfl⟩
    have hCodec : sampleRawReader.codec = .runLength := by cbv
    rcases bad_frames_cost_themselves.2 sampleRawReader hReached
      (hCodec ▸ Codec.runLength_functional) (by cbv) with
      ⟨hHolds, hCalls⟩
    rcases hCalls e next hRead with ⟨hSpares, hOmits⟩
    rcases hOmits hDecoding with ⟨frame, tail, hOmitted⟩
    exact
      ⟨e, next, frame, tail, by cbv, hHolds, hRead, hDecoding,
        hSpares, hOmitted⟩

end FrameReader

end SplitStream
