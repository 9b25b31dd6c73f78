import SplitStream.Proofs.Reader.Likeness
import SplitStream.Proofs.Reader.Truncation

/-
  Readers that cannot be told apart. Where a codec has written
  what it reports, a reader answers by what it shows and by
  the bytes in front of it: neither the position of its source
  nor what lies in its staging area plays a part.

  Main declarations:
    * `Source.Twins`
    * `Reading.Stable.lockstep`
    * `ContainerReader.Twins`
    * `ContainerReader.settle_spec`
    * `ContainerReader.resembling`
    * `ContainerReader.lockstep_call`
-/

------------------------------------------------------------
-- Sources
------------------------------------------------------------

namespace SplitStream

open Step

/- Two sources that do not fail hold the same bytes. -/
structure Source.Twins
    (left right : Source) : Prop where
  left_fault : left.fault = none
  right_fault : right.fault = none
  rest : left.rest = right.rest

theorem Source.Twins.remaining
    {left right : Source}
    (h : left.Twins right) :
    left.remaining = right.remaining := by
  rw [remaining_eq, remaining_eq, h.rest]

namespace Reading

variable {α : Type}

/- A stable reading finds the same in the same bytes. -/
theorem Stable.lockstep
    {reading : Reading α}
    (hReading : reading.Stable) :
    reading.Lockstep Source.Twins fun _ => False := by
  intro left right hTwins
  have hRest : right.rest = left.rest ++ [] := by
    rw [List.append_nil, hTwins.rest]
  rcases hReading left right [] hTwins.left_fault
    hTwins.right_fault hRest with
    ⟨hMore, _⟩ |
    ⟨result, next, later, n, hHere, hThere, hAhead, hBeyond,
      hNext⟩
  · contradiction
  · left
    refine ⟨result, next, later, hHere, hThere, ?_⟩
    exact
      { left_fault := hAhead.fault.trans hTwins.left_fault
        right_fault := hBeyond.fault.trans hTwins.right_fault
        rest := by rw [hNext, List.append_nil] }

theorem lockstep_upTo
    (n : Nat) :
    (upTo n).Lockstep Source.Twins fun _ => False := by
  intro left right hTwins
  rcases perform_upTo left n hTwins.left_fault with
    ⟨next, hHere, hAhead⟩
  rcases perform_upTo right n hTwins.right_fault with
    ⟨later, hThere, hBeyond⟩
  rw [← hTwins.rest] at hThere hBeyond
  left
  refine ⟨_, next, later, hHere, hThere, ?_⟩
  exact
    { left_fault := hAhead.fault.trans hTwins.left_fault
      right_fault := hBeyond.fault.trans hTwins.right_fault
      rest := by rw [hAhead.rest, hBeyond.rest, hTwins.rest] }

end Reading

------------------------------------------------------------
-- Functional Codecs
------------------------------------------------------------

/-
  A functional codec unpacks a payload to one block, whatever
  was in the area before, or refuses it.
-/
theorem Staging.decompress_of_functional
    {codec : Codec}
    (hCodec : codec.Functional)
    (payload : Bytes)
    (length : Nat) :
    (∃ e : Error,
      e.isDecoding = true ∧
      ∀ staging : Staging,
        ∃ area,
          staging.decompress codec payload length =
            (.error e, ⟨area, staging.ready⟩)) ∨
      ∃ block : Bytes,
        block.length = length ∧
        ∀ staging : Staging,
          staging.decompress codec payload length =
            (.ok (), staging.copy block) := by
  cases hReport : (codec.decompress payload length).report with
  | error status =>
    left
    refine ⟨.codec status (codec.describe status), rfl, ?_⟩
    intro staging
    refine
      ⟨staging.area.overwrite
        ((codec.decompress payload length).written.take length),
        ?_⟩
    simp only [decompress, hReport]
    rfl
  | ok n =>
    by_cases hLength : n = length
    · right
      subst hLength
      have hWritten := hCodec payload n n hReport
      refine ⟨(codec.decompress payload n).written, hWritten, ?_⟩
      intro staging
      have hTake :
          (codec.decompress payload n).written.take n =
            (codec.decompress payload n).written :=
        List.take_of_length_le (Nat.le_of_eq hWritten)
      simp [decompress, hReport, hTake]
    · left
      refine ⟨.lengthMismatch length n, rfl, ?_⟩
      intro staging
      refine
        ⟨staging.area.overwrite
          ((codec.decompress payload length).written.take length),
          ?_⟩
      simp only [decompress, hReport, hLength, if_false]
      rfl

------------------------------------------------------------
-- Readers Of Containers
------------------------------------------------------------

namespace ContainerReader

open FrameReader Reading

variable {codec : Codec} {α : Type}

/-
  Two readers with a functional codec show the same, and the
  same bytes stand before them.
-/
structure Twins
    (left right : ContainerReader) : Prop where
  source : left.source.Twins right.source
  functional : left.codec.Functional
  codec : left.codec = right.codec
  header : left.header = right.header
  checksums : left.checksums = right.checksums
  ready : left.staging.ready = right.staging.ready
  stage : left.stage = right.stage
  follow : left.followMembers = right.followMembers
  frames : left.frames = right.frames

/- A payload is the block itself, or what the codec makes of it. -/
theorem unpack_spec
    (hCodec : codec.Functional)
    (payload : Bytes)
    (plain : Nat) :
    (∃ e : Error,
      e.isDecoding = true ∧
      ∀ reader : ContainerReader,
        reader.codec = codec →
          ∃ area,
            (unpack payload plain).perform reader =
              (.error e,
                { reader with
                  staging := ⟨area, reader.staging.ready⟩ })) ∨
      ∃ block : Bytes,
        block.length = plain ∧
        ∀ reader : ContainerReader,
          reader.codec = codec →
            (unpack payload plain).perform reader =
              (.ok (),
                { reader with
                  staging := reader.staging.copy block }) := by
  by_cases hStored : payload.length = plain
  · right
    refine ⟨payload, hStored, ?_⟩
    intro reader _
    simp [unpack, hStored]
  rcases Staging.decompress_of_functional hCodec payload plain with
    ⟨e, hBlame, hDecompress⟩ | ⟨block, hLength, hDecompress⟩
  · left
    refine ⟨e, hBlame, ?_⟩
    intro reader hSame
    rcases hDecompress reader.staging with ⟨area, hArea⟩
    refine ⟨area, ?_⟩
    simp [unpack, hStored, hSame, hArea]
  · right
    refine ⟨block, hLength, ?_⟩
    intro reader hSame
    simp [unpack, hStored, hSame, hDecompress reader.staging]

theorem isDecoding_of_verify
    {scope : Checksum.Scope}
    {bs : Bytes}
    {sums : List (Checksum × UInt32)}
    {e : Error}
    (h : verify scope bs sums = .error e) :
    e.isDecoding = true := by
  induction sums with
  | nil => cases h
  | cons sum sums ih =>
    rcases sum with ⟨kind, expected⟩
    unfold verify at h
    by_cases hSame : kind.compute bs = expected
    · simp only [hSame, if_true] at h
      exact ih h
    · simp only [hSame, if_false] at h
      cases h
      rfl

/-
  Parts that were read settle to one block or to one error of
  decoding, which the codec and the parts determine.
-/
theorem settle_spec
    (hCodec : codec.Functional)
    (recorded : Recorded)
    (plain : Nat) :
    ∃ outcome : Except Error Bytes,
      (∀ e, outcome = .error e → e.isDecoding = true) ∧
      ∀ reader : ContainerReader,
        reader.codec = codec →
          ∃ area,
            (recorded.settle plain).perform reader =
              match outcome with
              | .error e =>
                  (.error e,
                    { reader with
                      staging := ⟨area, reader.staging.ready⟩ })
              | .ok block =>
                  (.ok (),
                    { reader with
                      staging := ⟨area, block⟩
                      frames := reader.frames + 1 }) := by
  have hVerify (reader : ContainerReader) :=
    Step.perform_ofExcept
      (verify .packed recorded.payload recorded.packedSums)
      reader
  unfold Recorded.settle
  cases hPacked :
      verify .packed recorded.payload recorded.packedSums with
  | error e =>
    refine ⟨.error e, ?_, ?_⟩
    · rintro _ ⟨⟩
      exact isDecoding_of_verify hPacked
    intro reader hSame
    rw [hPacked] at hVerify
    exact
      ⟨reader.staging.area,
        Step.perform_bind_of_error (hVerify reader)⟩
  | ok passed =>
    rw [hPacked] at hVerify
    rcases unpack_spec hCodec recorded.payload plain with
      ⟨e, hBlame, hUnpack⟩ | ⟨block, hLength, hUnpack⟩
    · refine ⟨.error e, ?_, ?_⟩
      · rintro _ ⟨⟩
        exact hBlame
      intro reader hSame
      rcases hUnpack reader hSame with ⟨area, hRun⟩
      refine ⟨area, ?_⟩
      rw [Step.perform_bind_of_ok (hVerify reader)]
      exact Step.perform_bind_of_error hRun
    have hReady (reader : ContainerReader) :
        ((reader.staging.copy block).commit plain).ready =
          block := by
      rw [← hLength]
      exact Scratch.front_overwrite _ _
    cases hPlain : verify .plain block recorded.plainSums with
    | error e =>
      refine ⟨.error e, ?_, ?_⟩
      · rintro _ ⟨⟩
        exact isDecoding_of_verify hPlain
      intro reader hSame
      refine ⟨(reader.staging.copy block).area, ?_⟩
      rw [Step.perform_bind_of_ok (hVerify reader),
        Step.perform_bind_of_ok (hUnpack reader hSame),
        perform_deliver_eq]
      dsimp only
      rw [hReady, hPlain]
      rfl
    | ok checked =>
      refine ⟨.ok block, by simp, ?_⟩
      intro reader hSame
      refine ⟨(reader.staging.copy block).area, ?_⟩
      rw [Step.perform_bind_of_ok (hVerify reader),
        Step.perform_bind_of_ok (hUnpack reader hSame),
        perform_deliver_eq]
      dsimp only
      rw [hReady, hPlain]
      have hStaging :
          (reader.staging.copy block).commit plain =
            ⟨(reader.staging.copy block).area, block⟩ :=
        congrArg (Staging.mk _) (hReady reader)
      rw [← hStaging]

theorem lockstep_settle
    (recorded : Recorded)
    (plain : Nat) :
    (recorded.settle plain).Lockstep Twins fun _ => False := by
  intro left right hTwins
  rcases settle_spec hTwins.functional recorded plain with
    ⟨outcome, _, hSettle⟩
  rcases hSettle left rfl with ⟨area, hLeft⟩
  rcases hSettle right hTwins.codec.symm with ⟨other, hRight⟩
  left
  cases outcome with
  | error e =>
    exact ⟨_, _, _, hLeft, hRight, { hTwins with }⟩
  | ok block =>
    refine ⟨_, _, _, hLeft, hRight, ?_⟩
    exact
      { hTwins with
        ready := rfl
        frames := congrArg (· + 1) hTwins.frames }

theorem resembling : Resemblance Source.Twins Twins where
  near :=
    { remaining := fun _ _ hTwins => hTwins.remaining
      upTo := lockstep_upTo
      header := Header.stable_read.lockstep
      afterMagic := Header.stable_readAfterMagic.lockstep
      recorded := fun checksums plain =>
        (stable_readRecorded checksums plain).lockstep }
  source := fun _ _ hTwins => hTwins.source
  codec := fun _ _ hTwins => hTwins.codec
  checksums := fun _ _ hTwins => hTwins.checksums
  moved := fun _ _ _ _ hTwins hSource =>
    { hTwins with source := hSource }
  entered := fun _ _ _ hTwins =>
    { hTwins with header := rfl, checksums := rfl, stage := rfl }
  settle := lockstep_settle
  stage := fun _ _ hTwins => hTwins.stage
  follow := fun _ _ hTwins => hTwins.follow
  header := fun _ _ hTwins => hTwins.header
  frames := fun _ _ hTwins => hTwins.frames
  ready := fun _ _ hTwins => hTwins.ready
  taken := fun _ _ n hTwins =>
    { hTwins with ready := congrArg (List.drop n) hTwins.ready }
  cleared := fun _ _ hTwins => { hTwins with ready := rfl }
  staged := fun _ _ _ hTwins => { hTwins with stage := rfl }
  followed := fun _ _ _ hTwins => { hTwins with follow := rfl }

theorem lockstep_call
    (call : Call) :
    call.perform.Lockstep Twins fun _ => False :=
  resembling.call call

end ContainerReader

end SplitStream
