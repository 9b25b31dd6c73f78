import SplitStream.Proofs.Reader.Calls
import SplitStream.Proofs.Reader.Onward

/-
  Readers of containers that no call tells apart. What a
  reader does is put together from readings of its source,
  from entering members and from settling frames; a likeness
  of readers that these keep is kept by every call.

  Main declarations:
    * `Source.Likeness`
    * `ContainerReader.Likeness`
    * `ContainerReader.Likeness.decodeFrame`
    * `ContainerReader.Resemblance`
    * `ContainerReader.Resemblance.twinned`
    * `ContainerReader.Call`
    * `ContainerReader.Resemblance.call`
-/

------------------------------------------------------------
-- Sources
------------------------------------------------------------

namespace SplitStream

open Reading Step

/- Readers find the same in sources that are near each other. -/
structure Source.Likeness
    (Near : Source → Source → Prop) : Prop where
  remaining :
    ∀ left right : Source,
      Near left right → left.remaining = right.remaining
  upTo : ∀ n, (upTo n).Lockstep Near fun _ => False
  header : Header.read.Lockstep Near fun _ => False
  afterMagic : Header.readAfterMagic.Lockstep Near fun _ => False
  recorded :
    ∀ (checksums : Selection) (plain : Nat),
      (ContainerReader.Recorded.read checksums plain).Lockstep
        Near fun _ => False

variable {Near : Source → Source → Prop}

------------------------------------------------------------
-- Likenesses Of Readers
------------------------------------------------------------

namespace ContainerReader

open FrameReader

variable
  {Alike : ContainerReader → ContainerReader → Prop} {α : Type}

/-
  Readers that are alike decode the same frames and enter the
  same members.
-/
structure Likeness
    (Near : Source → Source → Prop)
    (Alike : ContainerReader → ContainerReader → Prop) :
    Prop where
  near : Source.Likeness Near
  source :
    ∀ left right : ContainerReader,
      Alike left right → Near left.source right.source
  codec :
    ∀ left right : ContainerReader,
      Alike left right → left.codec = right.codec
  checksums :
    ∀ left right : ContainerReader,
      Alike left right → left.checksums = right.checksums
  moved :
    ∀ (left right : ContainerReader) (s t : Source),
      Alike left right →
      Near s t →
        Alike { left with source := s } { right with source := t }
  entered :
    ∀ (left right : ContainerReader) (fields : Header),
      Alike left right →
        Alike
          { left with
            header := fields
            checksums := .ofFlags fields.flags
            stage := .frames }
          { right with
            header := fields
            checksums := .ofFlags fields.flags
            stage := .frames }
  settle :
    ∀ (recorded : Recorded) (plain : Nat),
      (recorded.settle plain).Lockstep Alike fun _ => False

namespace Likeness

theorem onSource
    (h : Likeness Near Alike)
    {reading : Reading α}
    (hReading : reading.Lockstep Near fun _ => False) :
    (onSource reading).Lockstep Alike fun _ => False := by
  apply hReading.within
  · exact h.source
  · exact fun left right s t hAlike => h.moved left right s t hAlike
  · exact fun _ _ hLost => hLost

theorem decodeFrame
    (h : Likeness Near Alike)
    (plain : Nat) :
    (decodeFrame plain).Lockstep Alike fun _ => False := by
  intro left right hAlike
  rw [perform_decodeFrame_eq, perform_decodeFrame_eq,
    ← h.checksums left right hAlike]
  apply Lockstep.bind _ _ left right hAlike
  · exact h.onSource (h.near.recorded _ plain)
  · exact fun recorded => h.settle recorded plain

theorem startMember
    (h : Likeness Near Alike)
    (fields : Header) :
    (startMember fields).Lockstep Alike fun _ => False := by
  unfold ContainerReader.startMember
  apply lockstep_get_bind
  · intro left right hAlike
    rw [h.codec left right hAlike]
  intro left right hAlike
  apply (lockstep_ofExcept _).bind
  intro checked
  apply lockstep_modify
  exact fun left right => h.entered left right fields

theorem nextMember
    (h : Likeness Near Alike) :
    nextMember.Lockstep Alike fun _ => False := by
  unfold ContainerReader.nextMember
  apply (h.onSource (h.near.upTo 9)).bind
  intro found
  apply Lockstep.ite
  · exact lockstep_pure false
  apply (h.onSource h.near.afterMagic).bind
  intro fields
  apply (h.startMember fields).bind
  intro started
  exact lockstep_pure true

end Likeness

------------------------------------------------------------
-- Settling
------------------------------------------------------------

/- A payload is unpacked by the codec in the staging area. -/
theorem unpack_of_staging
    (codec : Codec)
    (staging : Staging)
    (payload : Bytes)
    (plain : Nat) :
    ∃ (result : Except Error Unit) (unpacked : Staging),
      ∀ reader : ContainerReader,
        reader.codec = codec →
        reader.staging = staging →
          (unpack payload plain).perform reader =
            (result, { reader with staging := unpacked }) := by
  unfold unpack
  by_cases hStored : payload.length = plain
  · refine ⟨.ok (), staging.copy payload, ?_⟩
    rintro reader _ rfl
    simp only [perform_ofStep, hStored, if_true]
  · refine
      ⟨(staging.decompress codec payload plain).1,
        (staging.decompress codec payload plain).2, ?_⟩
    rintro reader rfl rfl
    simp only [perform_ofStep, hStored, if_false]

/- Parts are settled by the codec in the staging area. -/
theorem settle_of_staging
    (codec : Codec)
    (staging : Staging)
    (recorded : Recorded)
    (plain : Nat) :
    ∃ (result : Except Error Unit) (settled : Staging) (n : Nat),
      ∀ reader : ContainerReader,
        reader.codec = codec →
        reader.staging = staging →
          (recorded.settle plain).perform reader =
            (result,
              { reader with
                staging := settled
                frames := reader.frames + n }) := by
  have hVerify (reader : ContainerReader) :=
    perform_ofExcept
      (verify .packed recorded.payload recorded.packedSums)
      reader
  unfold Recorded.settle
  rcases hPacked :
      verify .packed recorded.payload recorded.packedSums with
    e | passed
  · refine ⟨.error e, staging, 0, ?_⟩
    rintro reader _ rfl
    rw [hPacked] at hVerify
    exact perform_bind_of_error (hVerify reader)
  rw [hPacked] at hVerify
  rcases unpack_of_staging codec staging recorded.payload plain
    with ⟨e | ⟨⟩, unpacked, hUnpack⟩
  · refine ⟨.error e, unpacked, 0, ?_⟩
    intro reader hCodec hStaging
    rw [perform_bind_of_ok (hVerify reader)]
    exact perform_bind_of_error (hUnpack reader hCodec hStaging)
  rcases hPlain :
      verify .plain (unpacked.commit plain).ready
        recorded.plainSums with
    e | ⟨⟩
  · refine ⟨.error e, unpacked, 0, ?_⟩
    intro reader hCodec hStaging
    rw [perform_bind_of_ok (hVerify reader),
      perform_bind_of_ok (hUnpack reader hCodec hStaging),
      perform_deliver_eq, hPlain]
    rfl
  · refine ⟨.ok (), unpacked.commit plain, 1, ?_⟩
    intro reader hCodec hStaging
    rw [perform_bind_of_ok (hVerify reader),
      perform_bind_of_ok (hUnpack reader hCodec hStaging),
      perform_deliver_eq, hPlain]

/- Readers with the same staging area settle parts alike. -/
theorem lockstep_settle_of_staging
    (hCodec :
      ∀ left right : ContainerReader,
        Alike left right → left.codec = right.codec)
    (hStaging :
      ∀ left right : ContainerReader,
        Alike left right → left.staging = right.staging)
    (hSettled :
      ∀ (left right : ContainerReader) (settled : Staging)
        (n : Nat),
        Alike left right →
          Alike
            { left with
              staging := settled
              frames := left.frames + n }
            { right with
              staging := settled
              frames := right.frames + n })
    (recorded : Recorded)
    (plain : Nat) :
    (recorded.settle plain).Lockstep Alike fun _ => False := by
  intro left right hAlike
  rcases settle_of_staging left.codec left.staging recorded plain
    with ⟨result, settled, n, hSettle⟩
  left
  exact
    ⟨result, _, _, hSettle left rfl rfl,
      hSettle right (hCodec left right hAlike).symm
        (hStaging left right hAlike).symm,
      hSettled left right settled n hAlike⟩

------------------------------------------------------------
-- Resemblances
------------------------------------------------------------

/- Readers that resemble each other stand at the same stage. -/
structure Resemblance
    (Near : Source → Source → Prop)
    (Alike : ContainerReader → ContainerReader → Prop) : Prop
    extends Likeness Near Alike where
  stage :
    ∀ left right : ContainerReader,
      Alike left right → left.stage = right.stage
  follow :
    ∀ left right : ContainerReader,
      Alike left right → left.followMembers = right.followMembers
  header :
    ∀ left right : ContainerReader,
      Alike left right → left.header = right.header
  frames :
    ∀ left right : ContainerReader,
      Alike left right → left.frames = right.frames
  ready :
    ∀ left right : ContainerReader,
      Alike left right →
        left.staging.ready = right.staging.ready
  taken :
    ∀ (left right : ContainerReader) (n : Nat),
      Alike left right →
        Alike
          { left with staging := (left.staging.take n).2 }
          { right with staging := (right.staging.take n).2 }
  cleared :
    ∀ left right : ContainerReader,
      Alike left right →
        Alike
          { left with staging := left.staging.clear }
          { right with staging := right.staging.clear }
  staged :
    ∀ (left right : ContainerReader) (stage : ReaderStage),
      Alike left right →
        Alike { left with stage := stage }
          { right with stage := stage }
  followed :
    ∀ (left right : ContainerReader) (on : Bool),
      Alike left right → Alike (left.follow on) (right.follow on)

namespace Resemblance

theorem proceed
    (h : Resemblance Near Alike)
    (start : Option Nat) :
    (proceed start).Lockstep Alike fun _ => False := by
  rcases start with _ | _ | n
  · exact lockstep_throw _
  · apply Lockstep.bind
    · apply lockstep_modify
      exact fun left right => h.staged left right .ended
    intro ended
    apply lockstep_get_bind
    · intro left right hAlike
      rw [h.follow left right hAlike]
    intro left right hAlike
    apply Lockstep.ite
    · apply h.nextMember.bind
      intro found
      exact lockstep_pure _
    · exact lockstep_pure _
  · apply (h.decodeFrame (n + 1)).bind
    intro decoded
    exact lockstep_pure _

theorem round
    (h : Resemblance Near Alike) :
    round.Lockstep Alike fun _ => False := by
  have hFrames :
      (ContainerReader.onSource frameStart >>=
        ContainerReader.proceed).Lockstep Alike fun _ => False :=
    (h.onSource (lockstep_frameStart (h.near.upTo 4))).bind
      h.proceed
  unfold ContainerReader.round
  apply lockstep_get_bind
  · intro left right hAlike
    rw [h.stage left right hAlike]
  intro left right hAlike
  apply Lockstep.ite
  · exact lockstep_pure _
  apply Lockstep.ite
  · apply (h.onSource h.near.header).bind
    intro fields
    apply (h.startMember fields).bind
    intro started
    exact hFrames
  · exact hFrames

theorem readFrameRounds
    (h : Resemblance Near Alike)
    (n : Nat) :
    (readFrameRounds n).Lockstep Alike fun _ => False := by
  induction n with
  | zero => exact lockstep_pure false
  | succ n ih =>
    unfold ContainerReader.readFrameRounds
    apply h.round.bind
    intro found
    cases found with
    | ended => exact lockstep_pure false
    | member => exact ih
    | frame => exact lockstep_pure true

theorem readFrame
    (h : Resemblance Near Alike) :
    readFrame.Lockstep Alike fun _ => False := by
  unfold ContainerReader.readFrame
  apply Lockstep.bind
  · exact lockstep_modify h.cleared
  intro cleared
  apply lockstep_get_bind
  · intro left right hAlike
    rw [h.near.remaining _ _ (h.source left right hAlike)]
  · intro left right hAlike
    exact h.readFrameRounds _

theorem twinned
    (h : Resemblance Near Alike) :
    Twinned Alike where
  ready := h.ready
  frames := h.frames
  remaining := fun left right hAlike =>
    h.near.remaining _ _ (h.source left right hAlike)
  readFrame := h.readFrame
  taken := h.taken

end Resemblance

------------------------------------------------------------
-- Calls
------------------------------------------------------------

/- The calls that only readers of containers have. -/
inductive FurtherCall where
  | reset
  | follow (on : Bool)
  | isFinished
  | header
  | checksums

def FurtherCall.action :
    FurtherCall → Action ContainerReader Answer
  | reset => do
      modify fun reader => reader.reset
      return .done
  | follow on => do
      modify fun reader => reader.follow on
      return .done
  | isFinished => do
      return .found (← get).isFinished
  | header => do
      return .header (← get).header
  | checksums => do
      return .checksums (← get).checksums

/- The calls of a reader of containers. -/
abbrev Call : Type :=
  ReaderCall FurtherCall

/- Make a call. -/
def Call.perform
    (call : Call) : Action ContainerReader Answer :=
  ReaderCall.action FurtherCall.action call

namespace Resemblance

/- Only the stage decides what becomes due. -/
theorem reset
    (h : Resemblance Near Alike)
    {left right : ContainerReader}
    (hAlike : Alike left right) :
    Alike left.reset right.reset := by
  unfold ContainerReader.reset
  rw [h.stage left right hAlike]
  exact h.staged _ _ _ (h.cleared left right hAlike)

theorem further
    (h : Resemblance Near Alike)
    (call : FurtherCall) :
    call.action.Lockstep Alike fun _ => False := by
  cases call with
  | reset =>
    apply Lockstep.bind
    · exact lockstep_modify fun _ _ hAlike => h.reset hAlike
    · exact fun _ => lockstep_pure _
  | follow on =>
    apply Lockstep.bind
    · apply lockstep_modify
      exact fun left right => h.followed left right on
    · exact fun _ => lockstep_pure _
  | isFinished =>
    apply lockstep_get_bind
    · intro left right hAlike
      unfold isFinished
      rw [h.stage left right hAlike]
    · exact fun _ _ _ => lockstep_pure _
  | header =>
    apply lockstep_get_bind
    · intro left right hAlike
      rw [h.header left right hAlike]
    · exact fun _ _ _ => lockstep_pure _
  | checksums =>
    apply lockstep_get_bind
    · intro left right hAlike
      rw [h.checksums left right hAlike]
    · exact fun _ _ _ => lockstep_pure _

theorem call
    (h : Resemblance Near Alike)
    (call : Call) :
    call.perform.Lockstep Alike fun _ => False :=
  h.twinned.lockstep fun other _ => h.further other

end Resemblance

end ContainerReader

end SplitStream
