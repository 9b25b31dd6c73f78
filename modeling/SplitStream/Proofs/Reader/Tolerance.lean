import SplitStream.Proofs.Reader.Walking

/-
  What can stop a reader of containers before a frame whose
  bytes are all there. Only the codec and the checksums are
  left to fail, and before a member its method.

  Main declarations:
    * `Step.Runs`
    * `Step.Runs.bind`
    * `ContainerReader.Tolerated`
    * `ContainerReader.runs_decodeFrame`
    * `ContainerReader.runs_nextMember`
-/

------------------------------------------------------------
-- Steps That May Fail
------------------------------------------------------------

namespace SplitStream

namespace Step

variable {ε σ α β : Type} {Allowed : ε → Prop}

/-
  A step goes well from a state, or it fails with one of the
  errors that are allowed.
-/
def Runs
    (Allowed : ε → Prop)
    (step : Step ε σ α)
    (s : σ)
    (Post : α → σ → Prop) : Prop :=
  match step.perform s with
  | (.ok a, t) => Post a t
  | (.error e, _) => Allowed e

theorem runs_of_ok
    {step : Step ε σ α}
    {s t : σ}
    {a : α}
    {Post : α → σ → Prop}
    (h : step.perform s = (.ok a, t))
    (hPost : Post a t) :
    step.Runs Allowed s Post := by
  rw [Runs, h]
  exact hPost

theorem runs_of_error
    {step : Step ε σ α}
    {s t : σ}
    {e : ε}
    {Post : α → σ → Prop}
    (h : step.perform s = (.error e, t))
    (hAllowed : Allowed e) :
    step.Runs Allowed s Post := by
  rw [Runs, h]
  exact hAllowed

theorem runs_get
    (s : σ) :
    (get : Step ε σ σ).Runs Allowed s fun a t =>
      a = s ∧ t = s :=
  runs_of_ok (perform_get s) ⟨rfl, rfl⟩

theorem Runs.mono
    {step : Step ε σ α}
    {s : σ}
    {First Second : α → σ → Prop}
    (hStep : step.Runs Allowed s First)
    (hWeaken : ∀ a t, First a t → Second a t) :
    step.Runs Allowed s Second := by
  rcases hRun : step.perform s with ⟨_ | a, t⟩
  · rw [Runs, hRun] at hStep ⊢
    exact hStep
  · rw [Runs, hRun] at hStep ⊢
    exact hWeaken a t hStep

/- A sequence runs if what follows runs where it goes on. -/
theorem Runs.bind
    {step : Step ε σ α}
    {after : α → Step ε σ β}
    {s : σ}
    {Middle : α → σ → Prop}
    {Post : β → σ → Prop}
    (hStep : step.Runs Allowed s Middle)
    (hAfter :
      ∀ a t, Middle a t → (after a).Runs Allowed t Post) :
    (step >>= after).Runs Allowed s Post := by
  rcases hRun : step.perform s with ⟨_ | a, t⟩
  · rw [Runs, hRun] at hStep
    exact runs_of_error (perform_bind_of_error hRun) hStep
  · rw [Runs, hRun] at hStep
    have hRest := hAfter a t hStep
    rwa [Runs, ← perform_bind_of_ok hRun] at hRest

/- A step runs as another one that does the same. -/
theorem runs_of_eq
    {step other : Step ε σ α}
    {s t : σ}
    {Post : α → σ → Prop}
    (h : step.perform s = other.perform t)
    (hOther : other.Runs Allowed t Post) :
    step.Runs Allowed s Post := by
  rw [Runs, h]
  exact hOther

theorem Runs.of_ok
    {step : Step ε σ α}
    {s t : σ}
    {a : α}
    {Post : α → σ → Prop}
    (h : step.Runs Allowed s Post)
    (hRun : step.perform s = (.ok a, t)) :
    Post a t := by
  rwa [Runs, hRun] at h

theorem Runs.of_error
    {step : Step ε σ α}
    {s t : σ}
    {e : ε}
    {Post : α → σ → Prop}
    (h : step.Runs Allowed s Post)
    (hRun : step.perform s = (.error e, t)) :
    Allowed e := by
  rwa [Runs, hRun] at h

end Step

------------------------------------------------------------
-- Arbitrary Bytes
------------------------------------------------------------

namespace Reading

/- A reading of bytes that are there does not fail. -/
theorem Consumes.runs
    {α σ : Type}
    {Allowed : Error → Prop}
    {part : σ → Source}
    {replace : Source → σ → σ}
    {reading : Reading α}
    {bs tail : Bytes}
    {a : α}
    {s : σ}
    (hReading : reading.Consumes bs a)
    (hFault : (part s).fault = none)
    (hRest : (part s).rest = bs ++ tail) :
    (Step.within part replace reading).Runs Allowed s fun b t =>
      b = a ∧
        ∃ source,
          t = replace source s ∧
          (part s).Ahead source bs.length ∧
          source.rest = tail := by
  rcases hReading.within s hFault hRest with
    ⟨source, hRun, hAhead⟩
  exact
    Step.runs_of_ok hRun
      ⟨rfl, source, rfl, hAhead, hAhead.rest_of_eq hRest rfl⟩

end Reading

------------------------------------------------------------
-- Frames Whose Bytes Are There
------------------------------------------------------------

namespace ContainerReader

open FrameReader Reading Segment

/- The errors that do not concern the structure of a stream. -/
inductive Tolerated : Error → Prop where
  | method (expected found : UInt8) :
      Tolerated (.methodMismatch expected found)
  | codec (status : CodecStatus) (reason : String) :
      Tolerated (.codec status reason)
  | length (expected actual : Nat) :
      Tolerated (.lengthMismatch expected actual)
  | checksum (kind : Checksum) (scope : Checksum.Scope)
      (expected actual : UInt32) :
      Tolerated (.checksumMismatch kind scope expected actual)

/- Recorded checksums are accepted, or they do not match. -/
theorem tolerated_of_verify
    {scope : Checksum.Scope}
    {bs : Bytes}
    {sums : List (Checksum × UInt32)}
    {e : Error}
    (h : verify scope bs sums = .error e) :
    Tolerated e := by
  induction sums with
  | nil => cases h
  | cons sum sums ih =>
    rcases sum with ⟨kind, expected⟩
    unfold verify at h
    by_cases hSame : kind.compute bs = expected
    · simp only [hSame, if_true] at h
      exact ih h
    · simp only [hSame, if_false] at h
      cases h
      exact .checksum _ _ _ _

variable {reader : ContainerReader}

theorem runs_onSource
    {α : Type}
    {reading : Reading α}
    {bs tail : Bytes}
    {a : α}
    (hReading : reading.Consumes bs a)
    (hFault : reader.source.fault = none)
    (hRest : reader.source.rest = bs ++ tail) :
    (onSource reading).Runs Tolerated reader fun b next =>
      b = a ∧
        ∃ source,
          next = { reader with source := source } ∧
          reader.source.Ahead source bs.length ∧
          source.rest = tail :=
  hReading.runs hFault hRest

theorem runs_verify
    (scope : Checksum.Scope)
    (bs : Bytes)
    (sums : List (Checksum × UInt32)) :
    (ofExcept (verify scope bs sums) :
      Action ContainerReader Unit).Runs Tolerated reader
      fun _ next => next = reader := by
  have hRun := Step.perform_ofExcept (verify scope bs sums) reader
  rcases hVerify : verify scope bs sums with e | ⟨⟩
  · rw [hVerify] at hRun
    exact Step.runs_of_error hRun (tolerated_of_verify hVerify)
  · rw [hVerify] at hRun
    exact Step.runs_of_ok hRun rfl

/- A payload is unpacked, or the codec refuses it. -/
theorem runs_unpack
    (payload : Bytes)
    (plain : Nat) :
    (unpack payload plain).Runs Tolerated reader fun _ next =>
      ∃ staging, next = { reader with staging := staging } := by
  by_cases hStored : payload.length = plain
  · have hRun :
        (unpack payload plain).perform reader =
          (.ok (),
            { reader with
              staging := reader.staging.copy payload }) := by
      simp [unpack, hStored]
    exact Step.runs_of_ok hRun ⟨_, rfl⟩
  · rcases reader.staging.decompress_spec reader.codec payload
      plain with ⟨result, hDecompress, _, hBlame⟩
    have hRun :
        (unpack payload plain).perform reader =
          (result,
            { reader with
              staging :=
                reader.staging.copy
                  ((reader.codec.decompress payload
                    plain).written.take plain) }) := by
      simp [unpack, hStored, hDecompress]
    rcases result with e | ⟨⟩
    · apply Step.runs_of_error hRun
      rcases hBlame e rfl with ⟨_, _, rfl⟩ | ⟨_, rfl⟩
      · exact .codec _ _
      · exact .length _ _
    · exact Step.runs_of_ok hRun ⟨_, rfl⟩

/- A block becomes ready, or its checksums do not match. -/
theorem runs_deliver
    (plain : Nat)
    (sums : List (Checksum × UInt32)) :
    (deliver plain sums).Runs Tolerated reader fun _ next =>
      ∃ staging,
        next =
          { reader with
            staging := staging
            frames := reader.frames + 1 } := by
  unfold deliver
  apply (Step.runs_get reader).bind
  rintro _ _ ⟨rfl, rfl⟩
  apply (runs_verify _ _ _).bind
  rintro ⟨⟩ _ rfl
  exact Step.runs_of_ok (Step.perform_set _ _) ⟨_, rfl⟩

/-
  A frame whose parts are all there is moved over, or its
  checksums or its codec fail.
-/
theorem runs_decodeFrame
    {plain : Nat}
    {plainSums packedSums payload tail : Bytes}
    (hPlain : plain ≤ maxBlockSize)
    (hPacked : payload.length ≤ plain)
    (hFault : reader.source.fault = none)
    (hRest :
      reader.source.rest =
        Frame.length payload.length ++
          (plainSums ++ (packedSums ++ (payload ++ tail))))
    (hPlainSums :
      plainSums.length =
        4 * (reader.checksums.kinds .plain).length)
    (hPackedSums :
      packedSums.length =
        if payload.length = plain then
          0
        else
          4 * (reader.checksums.kinds .packed).length) :
    (decodeFrame plain).Runs Tolerated reader fun _ next =>
      next.source.rest = tail ∧
        next.checksums = reader.checksums := by
  rcases exists_sumsLayout _ hPlainSums with
    ⟨plainFound, hPlainKinds, rfl⟩
  have hKinds :
      packedSums.length =
        4 *
          (if payload.length = plain then
            []
          else
            reader.checksums.kinds .packed).length := by
    rw [hPackedSums]
    split
    · rfl
    · rfl
  rcases exists_sumsLayout _ hKinds with
    ⟨packedFound, hPackedKinds, rfl⟩
  have hFits :
      (Recorded.mk plainFound packedFound payload).FitsIn
        reader.checksums plain :=
    ⟨hPlain, hPacked, hPlainKinds, hPackedKinds⟩
  have hParts :
      reader.source.rest =
        (Recorded.mk plainFound packedFound payload).encode ++
          tail := by
    rw [hRest, Recorded.encode]
    simp only [List.append_assoc]
  rcases perform_decodeFrame_of_fits reader hFits hFault hParts
    with ⟨source, hDecode, hAhead⟩
  have hLast : source.rest = tail :=
    hAhead.rest_of_eq hParts rfl
  apply Step.runs_of_eq hDecode
  apply (runs_verify _ _ _).bind
  rintro ⟨⟩ _ rfl
  apply (runs_unpack _ _).bind
  rintro ⟨⟩ _ ⟨staging, rfl⟩
  apply (runs_deliver _ _).mono
  rintro ⟨⟩ _ ⟨staging, rfl⟩
  exact ⟨hLast, rfl⟩

------------------------------------------------------------
-- Members Whose Headers Are There
------------------------------------------------------------

/- A method is accepted, or it is not that of the codec. -/
theorem runs_startMember
    (fields : Header) :
    (startMember fields).Runs Tolerated reader fun _ next =>
      next =
        { reader with
          header := fields
          checksums := .ofFlags fields.flags
          stage := .frames } := by
  by_cases hMethod : fields.method = reader.codec.method
  · have hRun :
        (startMember fields).perform reader =
          (.ok ⟨⟩,
            { reader with
              header := fields
              checksums := .ofFlags fields.flags
              stage := .frames }) := by
      simp [startMember, checkMethod, hMethod,
        Step.perform_bind]
    exact Step.runs_of_ok hRun rfl
  · have hRun :
        (startMember fields).perform reader =
          (.error
              (.methodMismatch reader.codec.method
                fields.method),
            reader) := by
      simp [startMember, checkMethod, hMethod,
        Step.perform_bind]
    exact Step.runs_of_error hRun (.method _ _)

/- Before a header, a further member is entered. -/
theorem runs_nextMember
    {fields : Header}
    {tail : Bytes}
    (hRegular : fields.Regular)
    (hFault : reader.source.fault = none)
    (hRest : reader.source.rest = fields.encode ++ tail) :
    nextMember.Runs Tolerated reader fun found next =>
      found = true ∧
        next.source.rest = tail ∧
        next.checksums = .ofFlags fields.flags := by
  have hNine : Container.magic.length = 9 := rfl
  rw [Header.encode_eq, List.append_assoc] at hRest
  unfold nextMember
  apply (runs_onSource (consumes_upTo hNine) hFault hRest).bind
  rintro _ _ ⟨rfl, s₁, rfl, hAhead₁, hRest₁⟩
  rw [if_neg (not_not_intro rfl)]
  apply (runs_onSource
    (Header.consumes_readAfterMagic hRegular)
    (hAhead₁.fault.trans hFault) hRest₁).bind
  rintro _ _ ⟨rfl, s₂, rfl, _, hRest₂⟩
  apply (runs_startMember _).bind
  rintro ⟨⟩ _ rfl
  exact Step.runs_of_ok (Step.perform_pure _ _) ⟨rfl, hRest₂, rfl⟩

end ContainerReader

end SplitStream
