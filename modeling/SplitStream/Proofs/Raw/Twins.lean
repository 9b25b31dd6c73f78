import SplitStream.Proofs.Raw.Onward
import SplitStream.Proofs.Reader.Twins

/-
  Readers of raw streams that cannot be told apart. With a
  functional codec they answer by what they show and by the
  bytes in front of them, unless their source is moved.

  Main declarations:
    * `RawReader.Likeness`
    * `RawReader.Likeness.twinned`
    * `RawReader.Twins`
    * `RawReader.decode_spec`
    * `RawReader.Call`
    * `RawReader.lockstep_call`
-/

------------------------------------------------------------
-- Readers Of Raw Streams
------------------------------------------------------------

namespace SplitStream

open Step

namespace RawReader

open FrameReader Reading

variable {codec : Codec} {α : Type}

/-
  Readers that are alike read the same parts of frames and
  decode them alike.
-/
structure Likeness
    (Near : Source → Source → Prop)
    (Alike : RawReader → RawReader → Prop) : Prop where
  remaining :
    ∀ left right : Source,
      Near left right → left.remaining = right.remaining
  bytes : (upTo 4).Lockstep Near fun _ => False
  payload :
    ∀ (codec : Codec) (plain : Nat),
      (readPayload codec plain).Lockstep Near fun _ => False
  source :
    ∀ left right : RawReader,
      Alike left right → Near left.source right.source
  codec :
    ∀ left right : RawReader,
      Alike left right → left.codec = right.codec
  frames :
    ∀ left right : RawReader,
      Alike left right → left.frames = right.frames
  ready :
    ∀ left right : RawReader,
      Alike left right →
        left.staging.ready = right.staging.ready
  moved :
    ∀ (left right : RawReader) (s t : Source),
      Alike left right →
      Near s t →
        Alike { left with source := s } { right with source := t }
  taken :
    ∀ (left right : RawReader) (n : Nat),
      Alike left right →
        Alike
          { left with staging := (left.staging.take n).2 }
          { right with staging := (right.staging.take n).2 }
  cleared :
    ∀ left right : RawReader,
      Alike left right →
        Alike
          { left with staging := left.staging.clear }
          { right with staging := right.staging.clear }
  decode :
    ∀ (payload : Bytes) (plain : Nat),
      (decode payload plain).Lockstep Alike fun _ => False

namespace Likeness

variable
  {Near : Source → Source → Prop}
  {Alike : RawReader → RawReader → Prop}

theorem readParts
    (h : Likeness Near Alike)
    (codec : Codec) :
    (readParts codec).Lockstep Near fun _ => False := by
  unfold RawReader.readParts
  apply (lockstep_frameStart h.bytes).bind
  intro start
  cases start with
  | none => exact lockstep_pure none
  | some plain => exact h.payload codec plain

theorem decodeParts
    (h : Likeness Near Alike)
    (parts : Option (Nat × Bytes)) :
    (decodeParts parts).Lockstep Alike fun _ => False := by
  cases parts with
  | none => exact lockstep_pure false
  | some parts =>
    apply (h.decode parts.2 parts.1).bind
    intro decoded
    exact lockstep_pure true

theorem twinned
    (h : Likeness Near Alike) :
    Twinned Alike where
  ready := h.ready
  frames := h.frames
  remaining := fun left right hAlike =>
    h.remaining _ _ (h.source left right hAlike)
  readFrame := by
    intro left right hAlike
    have hParts :
        (onSource (RawReader.readParts left.codec) >>=
          RawReader.decodeParts).Lockstep Alike
          fun _ => False := by
      apply Lockstep.bind _ h.decodeParts
      apply (h.readParts left.codec).within
      · exact h.source
      · exact h.moved
      · exact fun _ _ hLost => hLost
    have hRight :
        readFrame.perform right =
          (onSource (RawReader.readParts left.codec) >>=
            RawReader.decodeParts).perform
              { right with staging := right.staging.clear } := by
      rw [perform_readFrame_eq, h.codec left right hAlike]
    change
      Step.Paced _ _ (readFrame.perform left)
        (readFrame.perform right)
    rw [perform_readFrame_eq, hRight]
    exact hParts _ _ (h.cleared left right hAlike)
  taken := h.taken

end Likeness

/-
  Two readers with a functional codec show the same, and the
  same bytes stand before them.
-/
structure Twins
    (left right : RawReader) : Prop where
  source : left.source.Twins right.source
  functional : left.codec.Functional
  codec : left.codec = right.codec
  ready : left.staging.ready = right.staging.ready
  frames : left.frames = right.frames

/-
  A payload is decoded to one block or to one error, which
  the codec and the payload determine.
-/
theorem decode_spec
    (hCodec : codec.Functional)
    (payload : Bytes)
    (plain : Nat) :
    ∃ outcome : Except Error Bytes,
      (∀ e, outcome = .error e → e.isDecoding = true) ∧
      ∀ reader : RawReader,
        reader.codec = codec →
          ∃ area,
            (decode payload plain).perform reader =
              match outcome with
              | .error e =>
                  (.error e,
                    { reader with
                      staging := ⟨area, reader.staging.ready⟩ })
              | .ok block =>
                  (.ok (),
                    { reader with
                      staging := ⟨area, block⟩
                      frames := reader.frames + 1 }) := by
  rcases Staging.decompress_of_functional hCodec payload plain with
    ⟨e, hBlame, hDecompress⟩ | ⟨block, hLength, hDecompress⟩
  · refine ⟨.error e, ?_, ?_⟩
    · rintro _ ⟨⟩
      exact hBlame
    intro reader hSame
    rcases hDecompress reader.staging with ⟨area, hArea⟩
    refine ⟨area, ?_⟩
    simp [decode, hSame, hArea]
  · refine ⟨.ok block, by simp, ?_⟩
    intro reader hSame
    have hReady :
        ((reader.staging.copy block).commit plain).ready =
          block := by
      rw [← hLength]
      exact Scratch.front_overwrite _ _
    have hStaging :
        (reader.staging.copy block).commit plain =
          ⟨(reader.staging.copy block).area, block⟩ :=
      congrArg (Staging.mk _) hReady
    refine ⟨(reader.staging.copy block).area, ?_⟩
    simp only [decode, Step.perform_ofStep, hSame,
      hDecompress reader.staging, hStaging]

theorem lockstep_decode
    (payload : Bytes)
    (plain : Nat) :
    (decode payload plain).Lockstep Twins fun _ => False := by
  intro left right hTwins
  rcases decode_spec hTwins.functional payload plain with
    ⟨outcome, _, hDecode⟩
  rcases hDecode left rfl with ⟨area, hLeft⟩
  rcases hDecode right hTwins.codec.symm with ⟨other, hRight⟩
  left
  cases outcome with
  | error e => exact ⟨_, _, _, hLeft, hRight, { hTwins with }⟩
  | ok block =>
    refine ⟨_, _, _, hLeft, hRight, ?_⟩
    exact
      { hTwins with
        ready := rfl
        frames := congrArg (· + 1) hTwins.frames }

theorem likeness : Likeness Source.Twins Twins where
  remaining := fun _ _ hTwins => hTwins.remaining
  bytes := lockstep_upTo 4
  payload := fun codec plain =>
    (hereditary_readPayload hereditary_stable codec plain).lockstep
  source := fun _ _ hTwins => hTwins.source
  codec := fun _ _ hTwins => hTwins.codec
  frames := fun _ _ hTwins => hTwins.frames
  ready := fun _ _ hTwins => hTwins.ready
  moved := fun _ _ _ _ hTwins hSource =>
    { hTwins with source := hSource }
  taken := fun _ _ n hTwins =>
    { hTwins with ready := congrArg (List.drop n) hTwins.ready }
  cleared := fun _ _ hTwins => { hTwins with ready := rfl }
  decode := lockstep_decode

theorem twinned : Twinned Twins :=
  likeness.twinned

/- The calls that only readers of raw streams have. -/
inductive FurtherCall where
  | reset
  | seek (position : Nat)

def FurtherCall.action :
    FurtherCall → Action RawReader Answer
  | reset => do
      modify fun reader => reader.reset
      return .done
  | seek position => do
      modify fun reader => reader.seek position
      return .done

/- The calls of a reader of raw streams. -/
abbrev Call : Type :=
  ReaderCall FurtherCall

/- Make a call. -/
def Call.perform
    (call : Call) : Action RawReader Answer :=
  ReaderCall.action FurtherCall.action call

/- The source is not moved from outside. -/
def Call.Stays
    (call : Call) : Prop :=
  ∀ position, call ≠ .further (.seek position)

theorem lockstep_call
    {call : Call}
    (hStays : call.Stays) :
    call.perform.Lockstep Twins fun _ => False := by
  apply twinned.lockstep
  intro other hCall
  cases other with
  | reset =>
    apply Lockstep.bind
    · apply lockstep_modify
      exact fun _ _ hTwins => { hTwins with ready := rfl }
    · exact fun _ => lockstep_pure _
  | seek position => exact absurd hCall (hStays position)

end RawReader

end SplitStream
