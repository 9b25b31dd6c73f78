import SplitStream.Proofs.Reader.Tolerance
import SplitStream.Proofs.Reader.Twins

/-
  Frames of containers that are rejected. On its way to a
  frame a reader crosses headers and terminators in front of
  headers. A frame whose parts have been read is behind the
  reader, whether or not it is decoded, so a frame that is
  rejected could as well not have been there.

  Main declarations:
    * `ContainerReader.Crosses`
    * `ContainerReader.Crosses.search_facing`
    * `ContainerReader.Meets`
    * `ContainerReader.Attributes`
    * `ContainerReader.attributes`
-/

------------------------------------------------------------
-- Ways To Frames
------------------------------------------------------------

namespace SplitStream

namespace ContainerReader

open FrameReader Reading

variable {reader next last : ContainerReader} {passed : Bytes}

/- The reader of a member with a given header. -/
def enter
    (reader : ContainerReader)
    (fields : Header) : ContainerReader :=
  { reader with
    header := fields
    checksums := .ofFlags fields.flags
    stage := .frames }

/- A reader of another source. -/
def facing
    (reader : ContainerReader)
    (source : Source) : ContainerReader :=
  { reader with source := source }

/-
  The bytes that a reader crosses before it stands in front
  of a frame: a header that is due, and terminators with
  headers behind them. The source plays no part.
-/
inductive Crosses :
    ContainerReader → Bytes → ContainerReader → Prop where
  | here {reader : ContainerReader} :
      reader.stage = .frames → Crosses reader [] reader
  | due {reader last : ContainerReader} {fields : Header}
      {passed : Bytes} :
      reader.stage = .headerDue →
      fields.Regular →
      fields.method = reader.codec.method →
      Crosses (reader.enter fields) passed last →
        Crosses reader (fields.encode ++ passed) last
  | member {reader last : ContainerReader} {fields : Header}
      {passed : Bytes} :
      reader.stage = .frames →
      reader.followMembers = true →
      fields.Regular →
      fields.method = reader.codec.method →
      Crosses (reader.enter fields) passed last →
        Crosses reader
          (Frame.length 0 ++ (fields.encode ++ passed)) last

/- Readers of another source cross the same bytes. -/
theorem Crosses.facing
    (hCrosses : reader.Crosses passed last)
    (source : Source) :
    (reader.facing source).Crosses passed (last.facing source) := by
  induction hCrosses with
  | here hStage => exact .here hStage
  | due hStage hRegular hMethod _ ih =>
    exact .due hStage hRegular hMethod ih
  | member hStage hFollow hRegular hMethod _ ih =>
    exact .member hStage hFollow hRegular hMethod ih

/- Look for a frame, with rounds enough. -/
def search : Action ContainerReader Bool := do
  readFrameRounds ((← get).source.remaining + 1)

theorem search_eq
    (n : Nat)
    (hRounds : reader.source.remaining < n) :
    search.perform reader = (readFrameRounds n).perform reader :=
  (perform_readFrameRounds_of_more n reader hRounds).symm

/- A search that begins with the same round is the same. -/
theorem search_of_round
    {other : ContainerReader}
    (hRound : round.perform reader = round.perform other)
    (hLe : other.source.remaining ≤ reader.source.remaining) :
    search.perform reader = search.perform other := by
  rcases hOther : round.perform other with ⟨result, next⟩
  rw [search_eq (reader.source.remaining + 1) (Nat.lt_succ_self _),
    search_eq (reader.source.remaining + 1)
      (Nat.lt_succ_of_le hLe),
    perform_readFrameRounds _ (hRound.trans hOther),
    perform_readFrameRounds _ hOther]

/- A search goes on behind a member. -/
theorem search_of_member
    (hRound : round.perform reader = (.ok .member, next))
    (hLess : next.source.remaining < reader.source.remaining) :
    search.perform reader = search.perform next := by
  rw [search_eq (reader.source.remaining + 1) (Nat.lt_succ_self _),
    perform_readFrameRounds _ hRound, search_eq _ hLess]

/- Where a header is due and there, its member is entered. -/
theorem round_of_due
    {fields : Header}
    {tail : Bytes}
    (hStage : reader.stage = .headerDue)
    (hRegular : fields.Regular)
    (hMethod : fields.method = reader.codec.method)
    (hFault : reader.source.fault = none)
    (hRest : reader.source.rest = fields.encode ++ tail) :
    ∃ source,
      round.perform reader =
        round.perform ((reader.enter fields).facing source) ∧
      reader.source.Ahead source fields.encode.length := by
  rcases perform_onSource (Header.consumes_read hRegular) reader
    hFault hRest with ⟨source, hHeader, hAhead⟩
  refine ⟨source, ?_, hAhead⟩
  have hEnter :
      (onSource Header.read >>= startMember).perform reader =
        (.ok (), (reader.enter fields).facing source) := by
    rw [Step.perform_bind_of_ok hHeader]
    simp [startMember, checkMethod, hMethod,
      Step.perform_bind, enter, facing]
  rw [perform_round_of_due hStage, Step.perform_bind_of_ok hEnter]
  exact (perform_round rfl).symm

/- A terminator with a header behind it ends a round. -/
theorem round_of_member
    {fields : Header}
    {tail : Bytes}
    (hStage : reader.stage = .frames)
    (hFollow : reader.followMembers = true)
    (hRegular : fields.Regular)
    (hMethod : fields.method = reader.codec.method)
    (hFault : reader.source.fault = none)
    (hRest :
      reader.source.rest =
        Frame.length 0 ++ (fields.encode ++ tail)) :
    ∃ source,
      round.perform reader =
        (.ok .member, (reader.enter fields).facing source) ∧
      reader.source.Ahead source (4 + fields.encode.length) := by
  rcases perform_onSource (consumes_frameStart (n := 0) (by decide))
    reader hFault hRest with ⟨s₁, hStart, hAhead₁⟩
  rcases perform_nextMember_of_header
    { reader with source := s₁, stage := .ended } hRegular hMethod
    (hAhead₁.fault.trans hFault) (hAhead₁.rest_of_eq hRest rfl)
    with ⟨s₂, hNext, hAhead₂⟩
  refine ⟨s₂, ?_, hAhead₁.trans hAhead₂⟩
  rw [perform_round hStage, Step.perform_bind_of_ok hStart,
    perform_proceed { reader with source := s₁ } hFollow,
    Step.perform_map, hNext]
  rfl

/- What lies behind the bytes that are crossed decides. -/
theorem Crosses.search_facing
    {tail : Bytes}
    {source : Source}
    (hCrosses : reader.Crosses passed last)
    (hFault : source.fault = none)
    (hRest : source.rest = passed ++ tail) :
    ∃ after,
      search.perform (reader.facing source) =
        search.perform (last.facing after) ∧
      source.Ahead after passed.length := by
  induction hCrosses generalizing source with
  | here _ => exact ⟨source, rfl, .refl source⟩
  | @due reader last fields passed hStage hRegular hMethod _ ih =>
    rw [List.append_assoc] at hRest
    have hFacing : (reader.facing source).stage = .headerDue :=
      hStage
    rcases round_of_due hFacing hRegular hMethod hFault hRest with
      ⟨s₁, hRound, hAhead₁⟩
    rcases ih (hAhead₁.fault.trans hFault)
      (hAhead₁.rest_of_eq hRest rfl) with ⟨s₂, hSearch, hAhead₂⟩
    refine ⟨s₂, ?_, ?_⟩
    · exact
        (search_of_round hRound hAhead₁.remaining_le).trans hSearch
    · rw [List.length_append]
      exact hAhead₁.trans hAhead₂
  | @member reader last fields passed hStage hFollow hRegular
      hMethod _ ih =>
    simp only [List.append_assoc] at hRest
    have hFacing : (reader.facing source).stage = .frames :=
      hStage
    rcases round_of_member hFacing hFollow hRegular hMethod hFault
      hRest with ⟨s₁, hRound, hAhead₁⟩
    have hRest₁ : s₁.rest = passed ++ tail := by
      rw [← List.append_assoc] at hRest
      apply hAhead₁.rest_of_eq hRest
      rw [List.length_append]
      rfl
    rcases ih (hAhead₁.fault.trans hFault) hRest₁ with
      ⟨s₂, hSearch, hAhead₂⟩
    refine ⟨s₂, ?_, ?_⟩
    · apply (search_of_member hRound _).trans hSearch
      change s₁.remaining < source.remaining
      rw [Source.remaining_eq, Source.remaining_eq, hRest₁, hRest]
      simp only [List.length_append]
      have : (Frame.length 0).length = 4 := rfl
      omega
    · simp only [List.length_append]
      rw [← Nat.add_assoc]
      exact hAhead₁.trans hAhead₂

------------------------------------------------------------
-- Frames That Are Met
------------------------------------------------------------

/- An error that is none of decoding. -/
def Structural
    (e : Error) : Prop :=
  e.isDecoding = false

theorem runs_of_onward
    {α : Type}
    {reading : Reading α}
    (hReading : reading.Onward)
    (reader : ContainerReader) :
    (onSource reading).Runs Structural reader fun _ _ => True := by
  rcases hRun : (onSource reading).perform reader with
    ⟨e | a, next⟩
  · apply Step.runs_of_error hRun
    rcases Prod.mk.inj hRun with ⟨hError, _⟩
    exact
      (hReading reader.source _ _ rfl).2 e hError
  · exact Step.runs_of_ok hRun trivial

theorem runs_startMember_structural
    (header : Header)
    (reader : ContainerReader) :
    (startMember header).Runs Structural reader
      fun _ _ => True := by
  unfold startMember
  apply (Step.runs_get reader).bind
  intro found _ _
  by_cases hMethod : header.method = found.codec.method
  · simp only [checkMethod, hMethod, if_true]
    exact Step.runs_of_ok rfl trivial
  · simp only [checkMethod, hMethod, if_false]
    exact Step.runs_of_error rfl rfl

theorem runs_nextMember_structural
    (reader : ContainerReader) :
    nextMember.Runs Structural reader fun _ _ => True := by
  unfold nextMember
  apply (runs_of_onward (onward_upTo 9) reader).bind
  intro found peeked _
  by_cases hMagic : found = Container.magic
  · rw [if_neg (not_not_intro hMagic)]
    apply (runs_of_onward Header.onward_readAfterMagic _).bind
    intro header read _
    apply (runs_startMember_structural header _).bind
    intro _ started _
    exact Step.runs_of_ok rfl trivial
  · rw [if_pos hMagic]
    exact Step.runs_of_ok rfl trivial

/-
  What a round in front of frames comes upon: a frame, a
  further member, or something else that concerns no frame.
-/
inductive Turn
    (reader : ContainerReader) :
    Except Error Round × ContainerReader → Prop where
  | frame {plain : Nat} {after : Source}
      {outcome : Except Error Unit} {next : ContainerReader} :
      reader.source.rest =
        Frame.length (plain + 1) ++ after.rest →
      reader.source.Ahead after 4 →
      (decodeFrame (plain + 1)).perform (reader.facing after) =
        (outcome, next) →
        Turn reader (outcome.map fun _ => .frame, next)
  | member {fields : Header} {after : Source} :
      reader.followMembers = true →
      fields.Regular →
      fields.method = reader.codec.method →
      reader.source.rest =
        Frame.length 0 ++ (fields.encode ++ after.rest) →
      reader.source.Ahead after (4 + fields.encode.length) →
        Turn reader
          (.ok .member, (reader.enter fields).facing after)
  | ended {next : ContainerReader} :
      Turn reader (.ok .ended, next)
  | failed {e : Error} {next : ContainerReader} :
      Structural e → Turn reader (.error e, next)

/- Behind a terminator. -/
theorem turn_of_terminator
    {source : Source}
    (hFault : reader.source.fault = none)
    (hRest : reader.source.rest = Frame.length 0 ++ source.rest)
    (hAhead : reader.source.Ahead source 4) :
    reader.Turn
      ((proceed (some 0)).perform (reader.facing source)) := by
  by_cases hFollow : reader.followMembers = true
  · rw [perform_proceed (reader.facing source) hFollow,
      Step.perform_map]
    have hBlame :=
      runs_nextMember_structural
        { reader.facing source with stage := .ended }
    rcases hNext :
        nextMember.perform
          { reader.facing source with stage := .ended } with
      ⟨e | _ | _, next⟩
    · exact .failed (hBlame.of_error hNext)
    · exact .ended
    · rcases header_of_nextMember (hAhead.fault.trans hFault) hNext
        with ⟨fields, hRegular, hMethod, hSame, hMore, hMoved⟩
      change source.rest = _ at hMore
      rw [hMore] at hRest
      have hTurn :=
        Turn.member hFollow hRegular hMethod hRest
          (hAhead.trans hMoved)
      rw [hSame]
      exact hTurn
  · have hStays :
        ¬ { reader.facing source with
            stage := .ended }.followMembers = true :=
      hFollow
    rw [proceed, Step.perform_bind_of_ok (Step.perform_modify _ _),
      Step.perform_bind_of_ok (Step.perform_get _), if_neg hStays]
    exact .ended

/- A round in front of frames. -/
theorem turn_of_round
    (hStage : reader.stage = .frames)
    (hFault : reader.source.fault = none) :
    reader.Turn (round.perform reader) := by
  rw [perform_round hStage]
  have hBlame := runs_of_onward onward_frameStart reader
  rcases hStart : (onSource frameStart).perform reader with
    ⟨e | start, next⟩
  · rw [Step.perform_bind_of_error hStart]
    exact .failed (hBlame.of_error hStart)
  rw [Step.perform_bind_of_ok hStart]
  rcases ok_of_onSource yields_frameStart hFault hStart with
    ⟨source, bs, rfl, hWord, hRest, hAhead⟩
  rcases start with _ | _ | plain
  · exact .failed rfl
  · rcases hWord 0 rfl with ⟨rfl, _⟩
    exact turn_of_terminator hFault hRest hAhead
  · rcases hWord (plain + 1) rfl with ⟨rfl, _⟩
    rcases hDecode :
        (decodeFrame (plain + 1)).perform (reader.facing source) with
      ⟨outcome, last⟩
    have hTurn := Turn.frame hRest hAhead hDecode
    have hProceed :
        (proceed (some (plain + 1))).perform
            { reader with source := source } =
          (outcome.map fun _ => .frame, last) := by
      change
        (decodeFrame (plain + 1) >>= fun _ =>
            pure Round.frame).perform (reader.facing source) =
          _
      rw [Step.perform_bind, hDecode]
      cases outcome with
      | error e => rfl
      | ok done => rfl
    rw [hProceed]
    exact hTurn

/-
  A reader meets a frame: behind the bytes that it crosses
  there is the length of a block.
-/
structure Meets
    (reader last : ContainerReader)
    (passed : Bytes)
    (plain : Nat)
    (after : Source) : Prop where
  crosses : reader.Crosses passed last
  rest :
    reader.source.rest =
      passed ++ (Frame.length (plain + 1) ++ after.rest)
  ahead : reader.source.Ahead after (passed.length + 4)

/- A frame was found, or decoding one has failed. -/
def OfFrame : Except Error Bool → Prop
  | .ok found => found = true
  | .error e => e.isDecoding = true

/-
  What a search comes to: it has met a frame, whose decoding
  is the outcome, or the outcome concerns no frame.
-/
def Attributes
    (n : Nat)
    (reader : ContainerReader) : Prop :=
  ∀ (result : Except Error Bool) (next : ContainerReader),
    (readFrameRounds n).perform reader = (result, next) →
    OfFrame result →
      ∃ last passed plain after outcome,
        reader.Meets last passed plain after ∧
        (decodeFrame (plain + 1)).perform (last.facing after) =
          (outcome, next) ∧
        result = outcome.map fun _ => true

theorem attributes_of_frames
    {n : Nat}
    (hStage : reader.stage = .frames)
    (hFault : reader.source.fault = none)
    (hMore :
      ∀ later : ContainerReader,
        later.source.fault = none → later.Attributes n) :
    reader.Attributes (n + 1) := by
  intro result next hRun hOf
  have hTurn := turn_of_round hStage hFault
  rcases hRound : round.perform reader with ⟨found, middle⟩
  rw [hRound] at hTurn
  rw [perform_readFrameRounds n hRound] at hRun
  cases hTurn with
  | ended =>
    cases hRun
    cases hOf
  | failed hStructural =>
    cases hRun
    cases hStructural.symm.trans hOf
  | @frame plain after outcome _ hRest hAhead hDecode =>
    have hMeets :
        reader.Meets reader [] plain after :=
      { crosses := .here hStage
        rest := hRest
        ahead := by simpa using hAhead }
    refine
      ⟨reader, [], plain, after, outcome, hMeets, ?_, ?_⟩
    · cases outcome with
      | error e =>
        cases hRun
        exact hDecode
      | ok done =>
        cases hRun
        exact hDecode
    · cases outcome with
      | error e =>
        cases hRun
        rfl
      | ok done =>
        cases hRun
        rfl
  | @member fields source hFollow hRegular hMethod hRest hAhead =>
    rcases hMore ((reader.enter fields).facing source)
      (hAhead.fault.trans hFault) result next hRun hOf with
      ⟨last, passed, plain, after, outcome, hMeets, hDecode,
        hResult⟩
    have hCrosses := hMeets.crosses.facing reader.source
    have hBehind := hMeets.rest
    have hMoved := hMeets.ahead
    change source.rest = _ at hBehind
    change source.Ahead after _ at hMoved
    refine
      ⟨last.facing reader.source,
        Frame.length 0 ++ (fields.encode ++ passed), plain, after,
        outcome, ?_, hDecode, hResult⟩
    constructor
    · exact .member hStage hFollow hRegular hMethod hCrosses
    · rw [hRest, hBehind]
      simp only [List.append_assoc]
    · have hBoth := hAhead.trans hMoved
      simp only [List.length_append, Frame.length,
        Bytes.length_bigEndian]
      simpa only [Nat.add_assoc] using hBoth

/- Where a header is due, its member is searched. -/
theorem attributes_of_due
    {n : Nat}
    (hStage : reader.stage = .headerDue)
    (hFault : reader.source.fault = none)
    (hEntered :
      ∀ entered : ContainerReader,
        entered.stage = .frames →
        entered.source.fault = none →
          entered.Attributes (n + 1)) :
    reader.Attributes (n + 1) := by
  intro result next hRun hOf
  rcases hRound : round.perform reader with ⟨found, middle⟩
  have hDue := (perform_round_of_due hStage).symm.trans hRound
  have hBlame :
      (onSource Header.read >>= startMember).Runs Structural reader
        fun _ _ => True :=
    (runs_of_onward Header.onward_read reader).bind
      fun header _ _ => runs_startMember_structural header _
  rcases hEnter :
      (onSource Header.read >>= startMember).perform reader with
    ⟨e | ⟨⟩, entered⟩
  · have hStructural := hBlame.of_error hEnter
    rw [Step.perform_bind_of_error hEnter] at hDue
    cases hDue
    rw [perform_readFrameRounds n hRound] at hRun
    cases hRun
    cases hStructural.symm.trans hOf
  rcases Step.ok_of_perform_bind hEnter with
    ⟨fields, _, hHeader, hStart⟩
  rcases ok_of_onSource Header.yields_read hFault hHeader with
    ⟨source, _, rfl, ⟨rfl, hRegular⟩, hRest, _⟩
  have hMethod : fields.method = reader.codec.method := by
    rw [startMember,
      Step.perform_bind_of_ok (Step.perform_get _)] at hStart
    rcases Step.ok_of_perform_bind hStart with ⟨_, _, hCheck, _⟩
    rw [Step.perform_ofExcept] at hCheck
    rcases Prod.mk.inj hCheck with ⟨hOk, _⟩
    by_cases hSame : fields.method = reader.codec.method
    · exact hSame
    · simp only [checkMethod, hSame, if_false] at hOk
      cases hOk
  rcases round_of_due hStage hRegular hMethod hFault hRest with
    ⟨s, hSame, hAhead⟩
  have hRounds :
      (readFrameRounds (n + 1)).perform
          ((reader.enter fields).facing s) =
        (result, next) := by
    rw [perform_readFrameRounds n (hSame.symm.trans hRound)]
    rwa [perform_readFrameRounds n hRound] at hRun
  rcases hEntered ((reader.enter fields).facing s) rfl
    (hAhead.fault.trans hFault) result next hRounds hOf with
    ⟨last, passed, plain, after, outcome, hMeets, hDecode,
      hResult⟩
  have hCrosses := hMeets.crosses.facing reader.source
  have hBehind := hMeets.rest
  have hMoved := hMeets.ahead
  change s.rest = _ at hBehind
  change s.Ahead after _ at hMoved
  rw [← hAhead.rest_of_eq hRest rfl, hBehind] at hRest
  refine
    ⟨last.facing reader.source, fields.encode ++ passed, plain,
      after, outcome, ?_, hDecode, hResult⟩
  constructor
  · exact .due hStage hRegular hMethod hCrosses
  · rw [hRest, List.append_assoc]
  · rw [List.length_append, Nat.add_assoc]
    exact hAhead.trans hMoved

/- Whatever concerns a frame is the decoding of one. -/
theorem attributes
    (n : Nat)
    (reader : ContainerReader)
    (hFault : reader.source.fault = none) :
    reader.Attributes n := by
  induction n generalizing reader with
  | zero =>
    intro result next hRun hOf
    cases hRun
    cases hOf
  | succ n ih =>
    cases hStage : reader.stage with
    | frames => exact attributes_of_frames hStage hFault ih
    | headerDue =>
      apply attributes_of_due hStage hFault
      intro entered hFrames hQuiet
      exact attributes_of_frames hFrames hQuiet ih
    | ended =>
      intro result next hRun hOf
      have hRound : round.perform reader = (.ok .ended, reader) := by
        unfold round
        rw [Step.perform_bind_of_ok (Step.perform_get reader),
          if_pos hStage]
        rfl
      rw [perform_readFrameRounds n hRound] at hRun
      cases hRun
      cases hOf

end ContainerReader

end SplitStream
