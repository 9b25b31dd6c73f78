import SplitStream.Proofs.Raw.Twins
import SplitStream.Proofs.Reader.Likeness
import SplitStream.Proofs.Source.Schedules

/-
  Short and interrupted answers of a source are never noticed.
  Readers of both framings, and scans, do the same whatever
  the pieces are in which the bytes come: every call has the
  same result and leaves the source at the same position.

  Main declarations:
    * `ContainerReader.Alike`
    * `ContainerReader.resemblance`
    * `RawReader.Alike`
    * `FrameReader.account`
    * `ContainerReader.session`
    * `RawReader.session`
    * `Source.Unnoticed`
    * `Source.pieces_unnoticed`
-/

------------------------------------------------------------
-- Readers Of Containers
------------------------------------------------------------

namespace SplitStream

open FrameReader Reading Step

namespace ContainerReader

/-
  Two readers with any codec, whose sources stand at the same
  place, and which are the same otherwise.
-/
structure Alike
    (left right : ContainerReader) : Prop where
  source : left.source.Alike right.source
  codec : left.codec = right.codec
  header : left.header = right.header
  checksums : left.checksums = right.checksums
  staging : left.staging = right.staging
  stage : left.stage = right.stage
  follow : left.followMembers = right.followMembers
  frames : left.frames = right.frames

theorem resemblance : Resemblance Source.Alike Alike where
  near :=
    { remaining := fun _ _ hAlike => hAlike.remaining
      upTo := oblivious_upTo
      header := Header.hereditary_read hereditary_oblivious
      afterMagic :=
        Header.hereditary_readAfterMagic hereditary_oblivious
      recorded := Recorded.hereditary_read hereditary_oblivious }
  source := fun _ _ hAlike => hAlike.source
  codec := fun _ _ hAlike => hAlike.codec
  checksums := fun _ _ hAlike => hAlike.checksums
  moved := fun _ _ _ _ hAlike hSource =>
    { hAlike with source := hSource }
  entered := fun _ _ _ hAlike =>
    { hAlike with header := rfl, checksums := rfl, stage := rfl }
  settle :=
    lockstep_settle_of_staging
      (fun _ _ hAlike => hAlike.codec)
      (fun _ _ hAlike => hAlike.staging)
      fun _ _ _ n hAlike =>
        { hAlike with
          staging := rfl
          frames := congrArg (· + n) hAlike.frames }
  stage := fun _ _ hAlike => hAlike.stage
  follow := fun _ _ hAlike => hAlike.follow
  header := fun _ _ hAlike => hAlike.header
  frames := fun _ _ hAlike => hAlike.frames
  ready := fun _ _ hAlike =>
    congrArg (fun staging => staging.ready) hAlike.staging
  taken := fun _ _ n hAlike =>
    { hAlike with
      staging :=
        congrArg (fun staging => (staging.take n).2)
          hAlike.staging }
  cleared := fun _ _ hAlike =>
    { hAlike with
      staging := congrArg Staging.clear hAlike.staging }
  staged := fun _ _ _ hAlike => { hAlike with stage := rfl }
  followed := fun _ _ _ hAlike => { hAlike with follow := rfl }

end ContainerReader

------------------------------------------------------------
-- Readers Of Raw Streams
------------------------------------------------------------

namespace RawReader

/- Two readers whose sources stand at the same place. -/
structure Alike
    (left right : RawReader) : Prop where
  source : left.source.Alike right.source
  codec : left.codec = right.codec
  staging : left.staging = right.staging
  frames : left.frames = right.frames

/- A payload is decoded by the codec in the staging area. -/
theorem lockstep_decode_of_staging
    (payload : Bytes)
    (plain : Nat) :
    (decode payload plain).Lockstep Alike fun _ => False := by
  intro left right hAlike
  have hSame :
      right.staging.decompress right.codec payload plain =
        left.staging.decompress left.codec payload plain := by
    rw [hAlike.staging, hAlike.codec]
  left
  unfold decode
  simp only [perform_ofStep, hSame]
  rcases left.staging.decompress left.codec payload plain with
    ⟨e | ⟨⟩, unpacked⟩
  · exact ⟨_, _, _, rfl, rfl, { hAlike with staging := rfl }⟩
  · refine ⟨_, _, _, rfl, rfl, ?_⟩
    exact
      { hAlike with
        staging := rfl
        frames := congrArg (· + 1) hAlike.frames }

theorem resemblance : Likeness Source.Alike Alike where
  remaining := fun _ _ hAlike => hAlike.remaining
  bytes := oblivious_upTo 4
  payload := hereditary_readPayload hereditary_oblivious
  source := fun _ _ hAlike => hAlike.source
  codec := fun _ _ hAlike => hAlike.codec
  frames := fun _ _ hAlike => hAlike.frames
  ready := fun _ _ hAlike =>
    congrArg (fun staging => staging.ready) hAlike.staging
  moved := fun _ _ _ _ hAlike hSource =>
    { hAlike with source := hSource }
  taken := fun _ _ n hAlike =>
    { hAlike with
      staging :=
        congrArg (fun staging => (staging.take n).2)
          hAlike.staging }
  cleared := fun _ _ hAlike =>
    { hAlike with
      staging := congrArg Staging.clear hAlike.staging }
  decode := lockstep_decode_of_staging

/- Moving the source moves it to the same place. -/
theorem lockstep_further
    (call : FurtherCall) :
    call.action.Lockstep Alike fun _ => False := by
  cases call with
  | reset =>
    apply Lockstep.bind
    · exact lockstep_modify resemblance.cleared
    · exact fun _ => lockstep_pure _
  | seek position =>
    apply Lockstep.bind
    · apply lockstep_modify
      exact fun _ _ hAlike =>
        { hAlike with source := hAlike.source.seek position }
    · exact fun _ => lockstep_pure _

end RawReader

------------------------------------------------------------
-- Sessions
------------------------------------------------------------

/- The result of a reading, and where it leaves the source. -/
def Reading.outcome
    {α : Type}
    (reading : Reading α)
    (source : Source) : Except Error α × Nat :=
  ((reading.perform source).1, (reading.final source).position)

theorem Reading.Oblivious.outcome_eq
    {α : Type}
    {reading : Reading α}
    {left right : Source}
    (h : reading.Oblivious)
    (hAlike : left.Alike right) :
    reading.outcome left = reading.outcome right := by
  unfold Reading.outcome Step.final
  rcases h left right hAlike with
    ⟨result, s, t, hLeft, hRight, hBoth⟩ | ⟨_, _, _, hLost⟩
  · rw [hLeft, hRight, hBoth.position]
  · exact hLost.elim

namespace FrameReader

variable {ρ γ α : Type} [FrameReader ρ]

/-
  The answers to calls, one after another, and the position
  that each of them leaves the source at.
-/
def account
    (action : γ → Action ρ α) :
    List γ → ρ → List (Except Error α × Nat)
  | [], _ => []
  | call :: calls, reader =>
      (((action call).perform reader).1,
        (source ((action call).final reader)).position) ::
        account action calls ((action call).final reader)

/- Calls in lockstep are accounted for alike. -/
theorem account_eq
    {Alike : ρ → ρ → Prop}
    {action : γ → Action ρ α}
    (hSource :
      ∀ left right : ρ,
        Alike left right → (source left).Alike (source right))
    (hCalls :
      ∀ call, (action call).Lockstep Alike fun _ => False)
    (calls : List γ)
    {left right : ρ}
    (hAlike : Alike left right) :
    account action calls left = account action calls right := by
  induction calls generalizing left right with
  | nil => rfl
  | cons call calls ih =>
    rcases hCalls call left right hAlike with
      ⟨result, s, t, hLeft, hRight, hBoth⟩ | ⟨_, _, _, hLost⟩
    · unfold account Step.final
      rw [hLeft, hRight, (hSource s t hBoth).position, ih hBoth]
    · exact hLost.elim

end FrameReader

namespace ContainerReader

/- A container is opened by its header, read or known. -/
inductive Opening where
  | start
  | resume (fields : Header)

def Opening.perform
    (codec : Codec) :
    Opening → Reading ContainerReader
  | start => ContainerReader.start codec
  | resume fields => do
      ofExcept (ContainerReader.resume (← get) fields codec)

/-
  A container is opened, and calls are made to its reader.
  The account of a session tells what came of both, and where
  they have left the source.
-/
def session
    (opening : Opening)
    (codec : Codec)
    (calls : List Call)
    (source : Source) :
    Except Error (List (Except Error Answer × Nat)) × Nat :=
  let outcome := (opening.perform codec).outcome source
  (outcome.1.map (account Call.perform calls), outcome.2)

/- Alike sources make alike readers, or none for one reason. -/
theorem resume_of_alike
    {left right : Source}
    (hAlike : left.Alike right)
    (fields : Header)
    (codec : Codec) :
    (∃ e,
      resume left fields codec = .error e ∧
      resume right fields codec = .error e) ∨
    ∃ reader other,
      resume left fields codec = .ok reader ∧
      resume right fields codec = .ok other ∧
      reader.Alike other := by
  unfold resume
  cases checkMethod codec fields with
  | error e =>
    left
    exact ⟨e, rfl, rfl⟩
  | ok checked =>
    right
    exact
      ⟨_, _, rfl, rfl, hAlike, rfl, rfl, rfl, rfl, rfl, rfl, rfl⟩

/- A reader is made of what was read, and sessions go alike. -/
theorem session_eq_of_header
    {opening : Opening}
    {codec : Codec}
    (header : Reading Header)
    (hOpening :
      opening.perform codec =
        header >>= fun fields => do
          ofExcept (resume (← get) fields codec))
    (hHeader : header.Oblivious)
    (calls : List Call)
    {left right : Source}
    (hAlike : left.Alike right) :
    session opening codec calls left =
      session opening codec calls right := by
  unfold session outcome Step.final
  rw [hOpening]
  rcases hHeader left right hAlike with
    ⟨e | fields, s, t, hLeft, hRight, hBoth⟩ | ⟨_, _, _, hLost⟩
  · rw [perform_bind_of_error hLeft, perform_bind_of_error hRight]
    dsimp only
    rw [hBoth.position]
  · rw [perform_bind_of_ok hLeft, perform_bind_of_ok hRight,
      perform_bind_of_ok (perform_get s),
      perform_bind_of_ok (perform_get t), perform_ofExcept,
      perform_ofExcept]
    dsimp only
    rw [hBoth.position]
    rcases resume_of_alike hBoth fields codec with
      ⟨e, hHere, hThere⟩ | ⟨reader, other, hHere, hThere, hSame⟩
    · rw [hHere, hThere]
    · have hAccount :=
        account_eq resemblance.source resemblance.call calls hSame
      rw [hHere, hThere]
      exact congrArg (fun account => (Except.ok account, _)) hAccount
  · exact hLost.elim

theorem session_eq
    (opening : Opening)
    (codec : Codec)
    (calls : List Call)
    {left right : Source}
    (hAlike : left.Alike right) :
    session opening codec calls left =
      session opening codec calls right := by
  cases opening with
  | start =>
    have hHeader := Header.hereditary_read hereditary_oblivious
    exact session_eq_of_header Header.read rfl hHeader calls hAlike
  | resume fields =>
    exact
      session_eq_of_header (pure fields) rfl
        (lockstep_pure fields) calls hAlike

end ContainerReader

/- A raw stream is opened, and calls are made to its reader. -/
def RawReader.session
    (codec : Codec)
    (calls : List RawReader.Call)
    (source : Source) : List (Except Error Answer × Nat) :=
  account RawReader.Call.perform calls (.new source codec)

theorem RawReader.session_eq
    (codec : Codec)
    (calls : List RawReader.Call)
    {left right : Source}
    (hAlike : left.Alike right) :
    session codec calls left = session codec calls right :=
  account_eq resemblance.source
    (fun _ =>
      resemblance.twinned.lockstep fun other _ =>
        lockstep_further other)
    calls ⟨hAlike, rfl, rfl, rfl⟩

------------------------------------------------------------
-- Pieces
------------------------------------------------------------

/-
  Nothing that is done with a source tells whether it is the
  one or the other: results and positions are the same.
-/
structure Source.Unnoticed
    (left right : Source) : Prop where
  containers :
    ∀ (opening : ContainerReader.Opening) (codec : Codec)
      (calls : List ContainerReader.Call),
      ContainerReader.session opening codec calls left =
        ContainerReader.session opening codec calls right
  raws :
    ∀ (codec : Codec) (calls : List RawReader.Call),
      RawReader.session codec calls left =
        RawReader.session codec calls right
  detect : Scan.detect.outcome left = Scan.detect.outcome right
  container :
    Scan.container.outcome left = Scan.container.outcome right
  raw : Scan.raw.outcome left = Scan.raw.outcome right
  stream : Scan.stream.outcome left = Scan.stream.outcome right

/-
  A byte string may be handed out in any pieces, and any of
  them may be interrupted any number of times: nobody notices.
  This is so for bytes of any kind, also for malformed and
  for truncated streams, and for sources that fail.
-/
theorem Source.pieces_unnoticed
    (content : Bytes)
    (position : Nat)
    (fault : Option (Nat × IoKind))
    (schedule other : Schedule) :
    (atPosition content position fault schedule).Unnoticed
      (atPosition content position fault other) := by
  have hAlike :
      (atPosition content position fault schedule).Alike
        (atPosition content position fault other) :=
    ⟨rfl, rfl, rfl⟩
  exact
    { containers := fun opening codec calls =>
        ContainerReader.session_eq opening codec calls hAlike
      raws := fun codec calls =>
        RawReader.session_eq codec calls hAlike
      detect := Scan.oblivious_detect.outcome_eq hAlike
      container := Scan.oblivious_container.outcome_eq hAlike
      raw := Scan.oblivious_raw.outcome_eq hAlike
      stream := Scan.oblivious_stream.outcome_eq hAlike }

end SplitStream
