import SplitStream.Proofs.Reader.Calls
import SplitStream.Proofs.Source.Heredity
import SplitStream.Scan

/-
  Sources that hand out the same bytes in different pieces.
  What is gathered from a source depends on its bytes, on its
  position and on where it fails, and not on how its answers
  come. So nothing that is read from a source does.

  Main declarations:
    * `Source.Alike`
    * `Source.gathered`
    * `Source.gather_eq_gathered`
    * `Reading.Oblivious`
    * `Reading.hereditary_oblivious`
    * `Scan.oblivious_container`
    * `Scan.oblivious_raw`
-/

------------------------------------------------------------
-- Sources That Are Alike
------------------------------------------------------------

namespace SplitStream

namespace Source

/-
  Two sources stand at the same place of the same bytes. They
  may give different answers, and more or fewer of them.
-/
structure Alike
    (left right : Source) : Prop where
  content : left.content = right.content
  position : left.position = right.position
  fault : left.fault = right.fault

namespace Alike

variable {left right : Source}

theorem rest
    (h : left.Alike right) :
    left.rest = right.rest := by
  rw [left.rest_eq, right.rest_eq, h.content, h.position]

theorem size
    (h : left.Alike right) :
    left.size = right.size := by
  rw [left.size_eq, right.size_eq, h.content]

theorem remaining
    (h : left.Alike right) :
    left.remaining = right.remaining := by
  rw [remaining_eq, remaining_eq, h.rest]

/- Sources that have gone on by as much are still alike. -/
theorem ahead
    {next later : Source}
    {n : Nat}
    (h : left.Alike right)
    (hNext : left.Ahead next n)
    (hLater : right.Ahead later n) :
    next.Alike later where
  content := by rw [hNext.content, hLater.content, h.content]
  position := by rw [hNext.position, hLater.position, h.position]
  fault := by rw [hNext.fault, hLater.fault, h.fault]

/- A source has gone on as far as one that it is like. -/
theorem moved
    {next later : Source}
    {n : Nat}
    (h : left.Alike right)
    (hNext : left.Ahead next n)
    (hBoth : next.Alike later) :
    right.Ahead later n where
  content := by rw [← hBoth.content, hNext.content, h.content]
  fault := by rw [← hBoth.fault, hNext.fault, h.fault]
  position := by rw [← hBoth.position, hNext.position, h.position]

theorem seek
    (h : left.Alike right)
    (n : Nat) :
    (left.seek n).Alike (right.seek n) := by
  rcases left.seek_spec n with ⟨hContent, hFault, hPosition⟩
  rcases right.seek_spec n with ⟨hSame, hBreak, hThere⟩
  exact
    { content := by rw [hContent, hSame, h.content]
      position := by rw [hPosition, hThere]
      fault := by rw [hFault, hBreak, h.fault] }

end Alike

------------------------------------------------------------
-- Gathering
------------------------------------------------------------

/- What there is of `n` wanted bytes before the source fails. -/
def piece
    (source : Source)
    (n : Nat) : Bytes :=
  source.rest.take (source.reach n)

/-
  What gathering comes to: the wanted bytes, or fewer of them
  at the end of the source, or its failure.
-/
def gathered
    (source : Source)
    (n : Nat) : Except IoKind Bytes :=
  if (source.piece n).length = n then
    .ok (source.piece n)
  else
    match (source.advance (source.piece n).length).failure? with
    | none => .ok (source.piece n)
    | some kind => .error kind

variable {source next : Source} {k n : Nat}

theorem length_piece_le
    (source : Source)
    (n : Nat) :
    (source.piece n).length ≤ n := by
  unfold piece reach
  rw [List.length_take]
  split <;> omega

/- Behind some of the bytes, the others are still there. -/
theorem Ahead.piece
    (h : source.Ahead next k)
    (hLe : k ≤ (source.piece n).length) :
    source.piece n = source.rest.take k ++ next.piece (n - k) := by
  have hReach : source.reach n = k + next.reach (n - k) := by
    unfold Source.piece at hLe
    rw [List.length_take] at hLe
    unfold reach at hLe ⊢
    rw [h.fault, h.position]
    cases hFault : source.fault with
    | none =>
      simp only [hFault] at hLe ⊢
      omega
    | some fault =>
      simp only [hFault] at hLe ⊢
      omega
  unfold Source.piece
  rw [hReach, List.take_add, h.rest]

theorem Ahead.length_piece
    (h : source.Ahead next k)
    (hLe : k ≤ (source.piece n).length) :
    (source.piece n).length =
      k + (next.piece (n - k)).length := by
  have hFront : (source.rest.take k).length = k := by
    unfold Source.piece at hLe
    rw [List.length_take] at hLe ⊢
    omega
  rw [h.piece hLe, List.length_append, hFront]

/- Where a source has come to is where it fails. -/
theorem Ahead.failure
    (h : source.Ahead next k) :
    next.failure? = (source.advance k).failure? := by
  unfold failure?
  rw [h.fault, h.position]
  rfl

/- It does not matter what was gathered before. -/
theorem Ahead.gathered
    (h : source.Ahead next k)
    (hLe : k ≤ (source.piece n).length) :
    source.gathered n =
      (next.gathered (n - k)).map (source.rest.take k ++ ·) := by
  have hPiece := h.piece hLe
  have hLength := h.length_piece hLe
  have hWanted := source.length_piece_le n
  have hAll :
      (source.piece n).length = n ↔
        (next.piece (n - k)).length = n - k := by
    omega
  have hFailure :
      (source.advance (source.piece n).length).failure? =
        (next.advance (next.piece (n - k)).length).failure? := by
    have hOn :
        next.Ahead (next.advance (next.piece (n - k)).length)
          (next.piece (n - k)).length :=
      ⟨rfl, rfl, rfl⟩
    rw [hLength]
    exact (h.trans hOn).failure.symm
  unfold Source.gathered
  simp only [hAll, hFailure]
  split
  · rw [hPiece]
    rfl
  · split
    · rw [hPiece]
      rfl
    · rfl

/- Bytes that are there are gathered first, then the others. -/
theorem Ahead.gathered_rest
    {before got : Bytes}
    {outcome : Except IoKind Bytes × Source}
    (h : source.Ahead next k)
    (hLe : k ≤ (source.piece n).length)
    (hGot : got = before ++ source.rest.take k)
    (hRest :
      ∃ final,
        outcome =
          ((next.gathered (n - k)).map (got ++ ·), final) ∧
        next.Ahead final (next.piece (n - k)).length) :
    ∃ final,
      outcome =
        ((source.gathered n).map (before ++ ·), final) ∧
      source.Ahead final (source.piece n).length := by
  rcases hRest with ⟨final, hOutcome, hMoved⟩
  refine ⟨final, ?_, ?_⟩
  · rw [hOutcome, h.gathered hLe, hGot]
    cases next.gathered (n - k) with
    | error kind => rfl
    | ok bs => simp [Except.map]
  · rw [h.length_piece hLe]
    exact h.trans hMoved

/- Nothing can be gathered where a source fails. -/
theorem gathered_of_failure
    {kind : IoKind}
    (hWant : n ≠ 0)
    (h : source.failure? = some kind) :
    source.gathered n = .error kind ∧ source.piece n = [] := by
  have hPiece : source.piece n = [] := by
    unfold piece reach
    unfold failure? at h
    cases hFault : source.fault with
    | none =>
      rw [hFault] at h
      cases h
    | some fault =>
      simp only [hFault] at h ⊢
      split at h
      · rw [Nat.sub_eq_zero_of_le ‹_›, Nat.min_zero, List.take_zero]
      · cases h
  refine ⟨?_, hPiece⟩
  have hHere : (source.advance 0).failure? = some kind := h
  simp only [gathered, hPiece, List.length_nil, hHere,
    if_neg hWant.symm]

/- Nothing is gathered from a source that is read up. -/
theorem Exhausted.gathered
    (h : source.Exhausted)
    (n : Nat) :
    source.gathered n = .ok [] ∧ source.piece n = [] := by
  have hPiece : source.piece n = [] := by
    rw [piece, h.rest, List.take_nil]
  refine ⟨?_, hPiece⟩
  have hHere : (source.advance 0).failure? = none := h.quiet
  simp only [Source.gathered, hPiece, List.length_nil, hHere,
    ite_self]

/- An answer never holds more than what there is. -/
theorem length_le_of_request
    {bs : Bytes}
    (h : source.request n = (.bytes bs, next)) :
    bs.length ≤ (source.piece n).length := by
  unfold request at h
  split at h
  · cases h
  split at h
  · cases h
  cases h
  have hGrant : source.schedule.grant source.turn n ≤ n := by
    unfold Schedule.grant
    split <;> omega
  have hReach :
      source.reach (source.schedule.grant source.turn n) ≤
        source.reach n := by
    unfold reach
    split <;> omega
  unfold piece
  rw [List.length_take, List.length_take]
  omega

/- A source that fails gives no bytes. -/
theorem failure_of_request
    {kind : IoKind}
    (h : source.request n = (.failed kind, next)) :
    source.failure? = some kind ∧ source.Ahead next 0 := by
  unfold request at h
  split at h
  · cases h
  split at h
  · cases h
    exact ⟨‹_›, rfl, rfl, rfl⟩
  · cases h

/- Gathering asks until it has what there is. -/
theorem gatherFrom_eq_gathered
    (source : Source)
    (want : Nat)
    (got : Bytes) :
    ∃ next,
      source.gatherFrom want got =
        ((source.gathered want).map (got.reverse ++ ·), next) ∧
      source.Ahead next (source.piece want).length := by
  fun_induction gatherFrom source want got with
  | case1 source got =>
    have hPiece : source.piece 0 = [] :=
      List.length_eq_zero_iff.mp
        (Nat.le_zero.mp (source.length_piece_le 0))
    refine ⟨source, ?_, ?_⟩
    · simp [gathered, hPiece, Except.map]
    · rw [hPiece]
      exact .refl source
  | case2 source want got hWant next hRequest ih =>
    have hAhead := ahead_of_interrupted hRequest
    exact hAhead.gathered_rest (Nat.zero_le _) (by simp) ih
  | case3 source want got hWant kind next hRequest =>
    rcases failure_of_request hRequest with ⟨hFailure, hAhead⟩
    rcases gathered_of_failure hWant hFailure with
      ⟨hGathered, hPiece⟩
    rw [hGathered, hPiece]
    exact ⟨next, rfl, hAhead⟩
  | case4 source want got hWant next hRequest =>
    rcases (exhausted_of_request hWant hRequest).gathered want with
      ⟨hGathered, hPiece⟩
    rw [hGathered, hPiece]
    refine ⟨next, ?_, (bytes_of_answer hRequest).1⟩
    simp [Except.map]
  | case5 source want got hWant b bs next hRequest ih =>
    rcases bytes_of_answer hRequest with ⟨hAhead, hFront⟩
    apply hAhead.gathered_rest (length_le_of_request hRequest) _ ih
    rw [← hFront]
    simp [List.reverseAux_eq]

theorem gather_eq_gathered
    (source : Source)
    (want : Nat) :
    ∃ next,
      source.gather want = (source.gathered want, next) ∧
      source.Ahead next (source.piece want).length := by
  rcases source.gatherFrom_eq_gathered want [] with
    ⟨next, hNext, hAhead⟩
  refine ⟨next, ?_, hAhead⟩
  rw [gather, hNext]
  cases source.gathered want <;> rfl

/- Sources that are alike give the same bytes and stay alike. -/
theorem Alike.gather
    {left right : Source}
    (h : left.Alike right)
    (want : Nat) :
    ∃ result next later,
      left.gather want = (result, next) ∧
      right.gather want = (result, later) ∧
      next.Alike later := by
  rcases left.gather_eq_gathered want with
    ⟨next, hNext, hAhead⟩
  rcases right.gather_eq_gathered want with
    ⟨later, hLater, hBeyond⟩
  have hPiece : right.piece want = left.piece want := by
    unfold piece reach
    rw [h.rest, h.position, h.fault]
  have hFailure (n : Nat) :
      (right.advance n).failure? = (left.advance n).failure? := by
    unfold failure? advance
    simp only [h.position, h.fault]
  have hGathered : right.gathered want = left.gathered want := by
    unfold gathered
    rw [hPiece, hFailure]
  rw [hGathered] at hLater
  rw [hPiece] at hBeyond
  exact ⟨_, next, later, hNext, hLater, h.ahead hAhead hBeyond⟩

end Source

------------------------------------------------------------
-- Oblivious Readings
------------------------------------------------------------

namespace Reading

open Step

variable {α β : Type}

/-
  A reading that does not notice in what pieces the bytes of
  its source come.
-/
abbrev Oblivious
    (reading : Reading α) : Prop :=
  reading.Lockstep Source.Alike fun _ => False

/- A reading that asks for bytes once is oblivious. -/
theorem oblivious_of_gather
    {reading : Reading α}
    (n : Nat)
    (conclude : Except IoKind Bytes → Except Error α)
    (h :
      ∀ source : Source,
        reading.perform source =
          (conclude (source.gather n).1, (source.gather n).2)) :
    reading.Oblivious := by
  intro left right hAlike
  rcases hAlike.gather n with
    ⟨result, next, later, hNext, hLater, hBoth⟩
  left
  refine ⟨conclude result, next, later, ?_, ?_, hBoth⟩
  · rw [h, hNext]
  · rw [h, hLater]

theorem oblivious_upTo
    (n : Nat) :
    (upTo n).Oblivious :=
  oblivious_of_gather n (fun result => result.mapError .io)
    fun _ => rfl

/- What is made of the bytes gathered for `n` bytes. -/
def ofGathered
    (short : Error)
    (n : Nat) : Except IoKind Bytes → Except Error Bytes
  | .error .unexpectedEnd => .error short
  | .error kind => .error (.io kind)
  | .ok bs => if bs.length < n then .error short else .ok bs

theorem oblivious_exactly
    (short : Error)
    (n : Nat) :
    (exactly short n).Oblivious := by
  apply oblivious_of_gather n (ofGathered short n)
  intro source
  unfold exactly ofGathered
  rw [perform_ofStep]
  rcases source.gather n with ⟨kind | bs, next⟩
  · cases kind <;> rfl
  · dsimp only
    split <;> rfl

theorem oblivious_seek
    (position : Nat) :
    (seek position).Oblivious :=
  lockstep_modify fun _ _ hAlike => hAlike.seek position

/- What is recorded is where the reading has gone over. -/
theorem Oblivious.recorded
    {reading : Reading α}
    (hReading : reading.Oblivious) :
    reading.recorded.Oblivious := by
  apply lockstep_get_bind
  · intro left right hAlike
    rw [hAlike.rest, hAlike.position]
  intro before other hBefore
  apply hReading.bind
  intro a
  apply lockstep_get_bind
  · intro left right hAlike
    rw [hAlike.position]
  · exact fun _ _ _ => lockstep_pure _

theorem hereditary_oblivious :
    Hereditary fun {_} reading => reading.Oblivious where
  of_pure := lockstep_pure
  of_throw := fun e _ => lockstep_throw e
  of_bind := fun hReading hAfter => hReading.bind hAfter
  of_exactly := fun cut n => oblivious_exactly (.truncated cut) n
  of_recorded := fun hReading => hReading.recorded

theorem oblivious_frameStart : frameStart.Oblivious :=
  lockstep_frameStart (oblivious_upTo 4)

theorem oblivious_frameLength : frameLength.Oblivious :=
  hereditary_oblivious.number .frameLength 4

end Reading

------------------------------------------------------------
-- Scans
------------------------------------------------------------

namespace Scan

open Reading Step

theorem oblivious_header : Header.read.Oblivious :=
  Header.hereditary_read hereditary_oblivious

theorem oblivious_detect : detect.Oblivious := by
  apply lockstep_get_bind
  · intro left right hAlike
    rw [hAlike.position]
  intro left right hAlike
  apply (oblivious_upTo 9).bind
  intro head
  apply (oblivious_seek _).bind
  intro moved
  exact lockstep_pure _

theorem oblivious_memberFollows
    (position stop : Nat) :
    (memberFollows position stop).Oblivious := by
  unfold memberFollows
  apply Lockstep.ite
  · exact lockstep_pure _
  apply (oblivious_exactly _ 9).bind
  intro head
  apply (oblivious_seek _).bind
  intro moved
  exact lockstep_pure _

/- Rounds that do not notice pieces make a scan that does not. -/
theorem oblivious_rounds
    {σ : Type}
    {round : σ → Reading (Option σ)}
    (hRound : ∀ state, (round state).Oblivious)
    (n : Nat)
    (state : σ) :
    (rounds round n state).Oblivious := by
  induction n generalizing state with
  | zero => exact lockstep_pure _
  | succ n ih =>
    unfold rounds
    apply (hRound state).bind
    intro found
    cases found with
    | none => exact lockstep_pure _
    | some next => exact ih next

theorem oblivious_containerRound
    (start stop : Nat)
    (cursor : MemberCursor) :
    (containerRound start stop cursor).Oblivious := by
  unfold containerRound
  apply oblivious_frameStart.bind
  intro word
  rcases word with _ | _ | plain
  · exact lockstep_throw _
  · apply (oblivious_memberFollows _ _).bind
    intro follows
    apply Lockstep.ite
    · apply oblivious_header.bind
      intro header
      exact lockstep_pure _
    · exact lockstep_pure _
  · apply oblivious_frameLength.bind
    intro packed
    apply hereditary_oblivious.unless rfl
    apply hereditary_oblivious.unless rfl
    apply (oblivious_seek _).bind
    intro moved
    exact lockstep_pure _

theorem oblivious_container : container.Oblivious := by
  apply lockstep_get_bind
  · intro left right hAlike
    rw [hAlike.position, hAlike.size, hAlike.remaining]
  intro left right hAlike
  apply oblivious_header.bind
  intro header
  apply Lockstep.bind
  · exact oblivious_rounds (oblivious_containerRound _ _) _ _
  · exact fun cursor => lockstep_ofExcept _

theorem oblivious_rawRound
    (start stop : Nat)
    (cursor : Cursor) :
    (rawRound start stop cursor).Oblivious := by
  unfold rawRound
  apply Lockstep.ite
  · exact lockstep_pure _
  apply hereditary_oblivious.unless rfl
  apply oblivious_frameLength.bind
  intro plain
  apply oblivious_frameLength.bind
  intro packed
  apply hereditary_oblivious.unless rfl
  apply hereditary_oblivious.unless rfl
  apply (oblivious_seek _).bind
  intro moved
  exact lockstep_pure _

theorem oblivious_raw : raw.Oblivious := by
  apply lockstep_get_bind
  · intro left right hAlike
    rw [hAlike.position, hAlike.size, hAlike.remaining]
  intro left right hAlike
  apply Lockstep.bind
  · exact oblivious_rounds (oblivious_rawRound _ _) _ _
  · exact fun cursor => lockstep_ofExcept _

theorem oblivious_stream : stream.Oblivious := by
  unfold stream
  apply oblivious_detect.bind
  intro variant
  cases variant with
  | container => exact oblivious_container
  | raw => exact oblivious_raw

end Scan

end SplitStream
