import SplitStream.Proofs.Writer.Keeping
import SplitStream.Proofs.Writer.Resuming

/-
  Used writers beside fresh ones. A used writer lays out, behind
  the members it has finished, what a fresh one lays out on its
  own. A fresh writer has laid out its first header from the
  start, and a used one lays it out only once it has something
  to put behind it; until then its header is due.

  Main declarations:
    * `Renewal`
    * `Renewal.Level`
    * `Renewal.Due`
    * `Renewal.Renewed`
    * `Renewal.Renewed.write`
    * `Renewal.Renewed.flush`
    * `Renewal.Renewed.finish`
    * `Renewal.Renewed.reset`
-/

------------------------------------------------------------
-- Two Writers
------------------------------------------------------------

namespace SplitStream

/-
  What a used writer and a fresh one have to do with each
  other: what receives their data, none of which ever fails,
  the codec and the number of blocks that the used writer has
  handed to it before, and the segments of its members before.
-/
structure Renewal
    (ω ω' : Type) where
  used : Receivers ω
  fresh : Receivers ω'
  used_settled : used.Settled
  fresh_settled : fresh.Settled
  codec : Codec
  attempts : Nat
  fields : Header
  captured : Bool
  before : List Segment

namespace Renewal

open ContainerWriter Segment

variable {ω ω' : Type}

/- The codec of the fresh writer. -/
def resumed
    (renewal : Renewal ω ω') : Codec :=
  renewal.codec.after renewal.attempts

/-
  The same segments have been laid out by both writers, which
  are at the same point of a member.
-/
structure Level
    (renewal : Renewal ω ω')
    (added : List Segment)
    (left : ContainerWriter ω × ω)
    (right : ContainerWriter ω' × ω') : Prop where
  used :
    left.1.Stands renewal.used renewal.codec renewal.fields
      left.2 renewal.captured false (renewal.before ++ added)
  fresh :
    right.1.Stands renewal.fresh renewal.resumed renewal.fields
      right.2 renewal.captured false added
  regrouper :
    left.1.regrouper.Resumes renewal.attempts right.1.regrouper
  stage : right.1.stage = left.1.stage

/-
  The used writer has laid out nothing yet, and the fresh one
  only its header.
-/
structure Due
    (renewal : Renewal ω ω')
    (left : ContainerWriter ω × ω)
    (right : ContainerWriter ω' × ω') : Prop where
  used :
    left.1.Stands renewal.used renewal.codec renewal.fields
      left.2 renewal.captured false renewal.before
  fresh :
    right.1.Stands renewal.fresh renewal.resumed renewal.fields
      right.2 renewal.captured false [.header renewal.fields]
  regrouper :
    left.1.regrouper.Resumes renewal.attempts right.1.regrouper
  due : left.1.stage = .headerDue
  opened : right.1.stage = .opened

/- Both writers are in an open member. -/
def Open
    (renewal : Renewal ω ω')
    (left : ContainerWriter ω × ω)
    (right : ContainerWriter ω' × ω') : Prop :=
  ∃ added,
    renewal.Level added left right ∧ left.1.stage = .opened

/- The used writer is as good as the fresh one. -/
def Renewed
    (renewal : Renewal ω ω')
    (left : ContainerWriter ω × ω)
    (right : ContainerWriter ω' × ω') : Prop :=
  (∃ added, renewal.Level added left right) ∨
    renewal.Due left right

variable
  {renewal : Renewal ω ω'} {added : List Segment}
  {left : ContainerWriter ω × ω}
  {right : ContainerWriter ω' × ω'}

theorem Open.renewed
    (h : renewal.Open left right) :
    renewal.Renewed left right := by
  rcases h with ⟨added, hLevel, _⟩
  exact .inl ⟨added, hLevel⟩

/- A header tells which checksums its writer records. -/
theorem Renewed.checksums
    (h : renewal.Renewed left right) :
    left.1.checksums = .ofFlags renewal.fields.flags ∧
      right.1.checksums = .ofFlags renewal.fields.flags := by
  rcases h with ⟨_, hLevel⟩ | hDue
  · rw [← hLevel.used.flags, ← hLevel.fresh.flags,
      hLevel.used.header_eq, hLevel.fresh.header_eq]
    exact ⟨rfl, rfl⟩
  · rw [← hDue.used.flags, ← hDue.fresh.flags,
      hDue.used.header_eq, hDue.fresh.header_eq]
    exact ⟨rfl, rfl⟩

theorem Level.checksums
    (h : renewal.Level added left right) :
    right.1.checksums = left.1.checksums := by
  have hRenewed : renewal.Renewed left right := .inl ⟨added, h⟩
  rw [hRenewed.checksums.1, hRenewed.checksums.2]

theorem Renewed.regrouper
    (h : renewal.Renewed left right) :
    left.1.regrouper.Resumes renewal.attempts
      right.1.regrouper := by
  rcases h with ⟨_, hLevel⟩ | hDue
  · exact hLevel.regrouper
  · exact hDue.regrouper

/- Both writers hold the same number of bytes. -/
theorem Renewed.pending
    (h : renewal.Renewed left right) :
    right.1.regrouper.pending = left.1.regrouper.pending := by
  rw [Regrouper.pending, Regrouper.pending, h.regrouper.held]

/- Both writers refuse a write, or neither of them. -/
theorem Renewed.finished_iff
    (h : renewal.Renewed left right) :
    right.1.stage = .finished ↔ left.1.stage = .finished := by
  rcases h with ⟨_, hLevel⟩ | hDue
  · rw [hLevel.stage]
  · rw [hDue.due, hDue.opened]
    simp

------------------------------------------------------------
-- Headers
------------------------------------------------------------

/- The header that is due is laid out, and both are level. -/
theorem Due.openMember
    (h : renewal.Due left right) :
    ∃ s,
      openMember.perform left = (.ok (), s) ∧
      openMember.perform right = (.ok (), right) ∧
      renewal.Open s right := by
  rcases left with ⟨writer, world⟩
  rcases h.used.openMember_of_due h.due with
    ⟨outlet, next, hOpen, hOpened⟩
  exact
    ⟨_, hOpen, perform_openMember_of_opened right.2 h.opened,
      [.header renewal.fields],
      ⟨hOpened, h.fresh, h.regrouper, h.opened⟩, rfl⟩

/- Both writers begin a member that is due. -/
theorem Level.openMember
    (h : renewal.Level added left right)
    (hStage : left.1.stage ≠ .finished) :
    ∃ s t,
      openMember.perform left = (.ok (), s) ∧
      openMember.perform right = (.ok (), t) ∧
      renewal.Open s t := by
  rcases left with ⟨writer, world⟩
  rcases right with ⟨other, next⟩
  cases hCase : writer.stage with
  | finished => exact absurd hCase hStage
  | opened =>
    have hOther : other.stage = .opened := h.stage.trans hCase
    exact
      ⟨_, _, perform_openMember_of_opened world hCase,
        perform_openMember_of_opened next hOther, added, h, hCase⟩
  | headerDue =>
    have hOther : other.stage = .headerDue := h.stage.trans hCase
    rcases h.used.openMember_of_due hCase with
      ⟨outlet, world', hLeft, hUsed⟩
    rcases h.fresh.openMember_of_due hOther with
      ⟨outlet', next', hRight, hFresh⟩
    rw [List.append_assoc] at hUsed
    exact
      ⟨_, _, hLeft, hRight, added ++ [.header renewal.fields],
        ⟨hUsed, hFresh, h.regrouper, rfl⟩, rfl⟩

theorem Renewed.openMember
    (h : renewal.Renewed left right)
    (hStage : left.1.stage ≠ .finished) :
    ∃ s t,
      openMember.perform left = (.ok (), s) ∧
      openMember.perform right = (.ok (), t) ∧
      renewal.Open s t := by
  rcases h with ⟨_, hLevel⟩ | hDue
  · exact hLevel.openMember hStage
  · rcases hDue.openMember with ⟨s, hLeft, hRight, hOpen⟩
    exact ⟨s, right, hLeft, hRight, hOpen⟩

------------------------------------------------------------
-- Frames
------------------------------------------------------------

/- The same blocks have left both outlets as frames. -/
def Emitted
    (renewal : Renewal ω ω')
    (added : List Segment)
    (checksums : Selection)
    (left : Outlet ω × ω)
    (right : Outlet ω' × ω') : Prop :=
  ∃ contents,
    ContainerWriter.Emitted renewal.used renewal.codec
      renewal.captured (renewal.before ++ added) checksums
      contents left ∧
    ContainerWriter.Emitted renewal.fresh renewal.resumed
      renewal.captured added checksums contents right

/- Nothing has left the outlets since. -/
theorem Level.emitted
    (h : renewal.Level added left right) :
    renewal.Emitted added left.1.checksums
      (left.1.outlet, left.2) (right.1.outlet, right.2) :=
  ⟨[], ⟨by simp, by simpa using h.used.outlet⟩,
    ⟨by simp, by simpa using h.fresh.outlet⟩⟩

/- The frame of a block leaves both outlets. -/
theorem Level.simulates_emission
    (h : renewal.Level added left right)
    {content : PackedBlock}
    (hFits : content.Fits)
    (hMakes : left.1.regrouper.Makes content)
    (hMade : right.1.regrouper.Makes content) :
    Step.Simulates (fun _ => True)
      (renewal.Emitted added left.1.checksums)
      (fun _ _ => False)
      (left.1.emission content.block content.packed)
      (right.1.emission content.block content.packed) := by
  rintro s t ⟨contents, hUsed, hFresh⟩
  rw [← h.checksums] at hFresh
  have hLeft :=
    emission_extends left.1 renewal.used renewal.codec
      renewal.captured (renewal.before ++ added) contents content
      s hUsed hFits (h.used.makes content hMakes)
  have hRight :=
    emission_extends right.1 renewal.fresh renewal.resumed
      renewal.captured added contents content t hFresh hFits
      (h.fresh.makes content hMade)
  rw [h.checksums] at hRight
  rcases hLeft with ⟨hFirst, hUsed'⟩ | ⟨_, _, hNever, _⟩
  · rcases hRight with ⟨hSecond, hFresh'⟩ | ⟨_, _, hNever, _⟩
    · left
      exact
        ⟨.ok (), _, _, Prod.ext hFirst rfl, Prod.ext hSecond rfl,
          ⟨_, hUsed', hFresh'⟩, fun _ _ => trivial⟩
    · exact hNever.elim
  · exact hNever.elim

/- Regroupers and outlets that have gone on alike are put back. -/
theorem Level.regrouped
    (h : renewal.Level added left right)
    (hStage : left.1.stage = .opened)
    {used fresh : Regrouper}
    {outlet : Outlet ω}
    {outlet' : Outlet ω'}
    {world : ω}
    {world' : ω'}
    (hKin : left.1.regrouper.Kin used)
    (hHeld : used.held.size ≤ used.blockSize)
    (hResumes : used.Resumes renewal.attempts fresh)
    (hEmitted :
      renewal.Emitted added left.1.checksums (outlet, world)
        (outlet', world')) :
    renewal.Open
      ({ left.1 with outlet := outlet, regrouper := used }, world)
      ({ right.1 with outlet := outlet', regrouper := fresh },
        world') := by
  rcases hEmitted with ⟨contents, hUsed, hFresh⟩
  have hKin' : right.1.regrouper.Kin fresh := by
    constructor
    · rw [hResumes.codec, hKin.codec, h.regrouper.codec]
    · rw [hResumes.blockSize, hKin.blockSize,
        h.regrouper.blockSize]
  have hHeld' : fresh.held.size ≤ fresh.blockSize := by
    rw [hResumes.held, hResumes.blockSize]
    exact hHeld
  have hFrames :
      contents.map (frame right.1.checksums) =
        contents.map (frame left.1.checksums) := by
    rw [h.checksums]
  have hStandsUsed := h.used.regrouped hStage hKin hHeld hUsed
  rw [List.append_assoc] at hStandsUsed
  rw [← h.checksums] at hFresh
  have hStandsFresh :=
    h.fresh.regrouped (h.stage.trans hStage) hKin' hHeld' hFresh
  rw [hFrames] at hStandsFresh
  exact
    ⟨added ++ contents.map (.frame left.1.checksums),
      ⟨hStandsUsed, hStandsFresh, hResumes, h.stage⟩, hStage⟩

/- Into open members, the same bytes are regrouped alike. -/
theorem Open.regroup
    (h : renewal.Open left right)
    (data : Bytes) :
    ∃ result s t,
      (onRegrouper (Regrouper.write left.1.emission data)).perform
          left =
        (result, s) ∧
      (onRegrouper (Regrouper.write right.1.emission data)).perform
          right =
        (result, t) ∧
      renewal.Open s t := by
  rcases left with ⟨writer, world⟩
  rcases right with ⟨other, next⟩
  rcases h with ⟨added, hLevel, hStage⟩
  rcases hLevel.emitted with ⟨contents, hStart, _⟩
  rcases Regrouper.writes_of_extends data
    (emission_extends writer renewal.used renewal.codec
      renewal.captured (renewal.before ++ added))
    hLevel.used.makes hLevel.used.blockSize_le hLevel.used.held_le
    hStart with
    ⟨_, _, _, _, _, hWrite, hIntake, _, _, _⟩
  have hMatched :=
    (Regrouper.tandem_resumes renewal.attempts).writeFrom_matched
      data hLevel.regrouper (fun _ _ => trivial)
      (fun block packed hFull hMakes hMade => by
        have hLength := hFull hLevel.used.held_le
        have hFits : PackedBlock.Fits ⟨block, packed⟩ :=
          ⟨hLength ▸ writer.regrouper.blockSize_pos,
            hLength ▸ hLevel.used.blockSize_le⟩
        exact hLevel.simulates_emission hFits hMakes hMade)
      (writer.outlet, world) (other.outlet, next) hLevel.emitted
  rcases hMatched with
    ⟨result, ⟨used, outlet, world'⟩, ⟨fresh, outlet', next'⟩,
      hLeft, hRight, ⟨hResumes, hEmitted⟩, _⟩ | ⟨_, _, _, hNever⟩
  · cases hLeft.symm.trans hWrite
    exact
      ⟨_, _, _, perform_onRegrouper hLeft,
        perform_onRegrouper hRight,
        hLevel.regrouped hStage hIntake.kin hIntake.held_le
          hResumes hEmitted⟩
  · exact hNever.elim

/- What both hold in an open member leaves them alike. -/
theorem Open.flushFrames
    (h : renewal.Open left right) :
    ∃ result s t,
      flushFrames.perform left = (result, s) ∧
      flushFrames.perform right = (result, t) ∧
      renewal.Open s t ∧
      (result = .ok () → s.1.regrouper.held.size = 0) := by
  rcases left with ⟨writer, world⟩
  rcases right with ⟨other, next⟩
  have hPending : other.regrouper.pending = _ :=
    h.renewed.pending
  by_cases hNone : writer.regrouper.pending = 0
  · exact
      ⟨.ok (), _, _, perform_flushFrames_of_none world hNone,
        perform_flushFrames_of_none next
          (hPending.trans hNone),
        h, fun _ => hNone⟩
  rcases h with ⟨added, hLevel, hStage⟩
  unfold ContainerWriter.flushFrames
  rw [Step.perform_bind_of_ok (perform_current writer world),
    Step.perform_bind_of_ok (perform_current other next),
    if_pos hNone, if_pos (hPending ▸ hNone),
    Step.perform_bind_of_ok
      (perform_openMember_of_opened world hStage),
    Step.perform_bind_of_ok
      (perform_openMember_of_opened next
        (hLevel.stage.trans hStage))]
  rcases hLevel.emitted with ⟨contents, hStart, _⟩
  rcases Regrouper.flush_of_extends
    (emission_extends writer renewal.used renewal.codec
      renewal.captured (renewal.before ++ added))
    hLevel.used.makes hLevel.used.blockSize_le hLevel.used.held_le
    hStart with
    ⟨_, flushed, _, _, hFlush, hKin, hLe, _, _, hOk, _⟩
  have hHeld : flushed.held.size ≤ flushed.blockSize := by
    rw [hKin.blockSize]
    exact Nat.le_trans hLe hLevel.used.held_le
  have hMatched :=
    (Regrouper.tandem_resumes renewal.attempts).flush_matched
      hLevel.regrouper (fun _ _ => trivial)
      (fun packed hSome hMakes hMade => by
        have hLength := writer.regrouper.held.size_eq_length
        have hBlock := hLevel.used.held_le
        have hSize := hLevel.used.blockSize_le
        have hFits :
            PackedBlock.Fits
              ⟨writer.regrouper.held.toBytes, packed⟩ := by
          constructor
          · dsimp only at hSome ⊢
            omega
          · dsimp only at hBlock hSize ⊢
            omega
        exact hLevel.simulates_emission hFits hMakes hMade)
      (writer.outlet, world) (other.outlet, next) hLevel.emitted
  rcases hMatched with
    ⟨result, ⟨used, outlet, world'⟩, ⟨fresh, outlet', next'⟩,
      hLeft, hRight, ⟨hResumes, hEmitted⟩, _⟩ | ⟨_, _, _, hNever⟩
  · cases hLeft.symm.trans hFlush
    exact
      ⟨_, _, _, perform_onRegrouper hLeft,
        perform_onRegrouper hRight,
        hLevel.regrouped hStage hKin hHeld hResumes hEmitted, hOk⟩
  · exact hNever.elim

/- Without an open member there is nothing to be flushed. -/
theorem Renewed.flushFrames
    (h : renewal.Renewed left right) :
    ∃ result s t,
      flushFrames.perform left = (result, s) ∧
      flushFrames.perform right = (result, t) ∧
      renewal.Renewed s t := by
  by_cases hStage : left.1.stage = .opened
  · have hOpen : renewal.Open left right := by
      rcases h with ⟨added, hLevel⟩ | hDue
      · exact ⟨added, hLevel, hStage⟩
      · rw [hDue.due] at hStage
        cases hStage
    rcases hOpen.flushFrames with
      ⟨result, s, t, hLeft, hRight, hNext, _⟩
    exact ⟨result, s, t, hLeft, hRight, hNext.renewed⟩
  · rcases left with ⟨writer, world⟩
    rcases right with ⟨other, next⟩
    have hNone : writer.regrouper.pending = 0 := by
      rcases h with ⟨_, hLevel⟩ | hDue
      · exact (hLevel.used.idle hStage).1
      · exact (hDue.used.idle hStage).1
    have hOther : other.regrouper.pending = 0 :=
      h.pending.trans hNone
    exact
      ⟨.ok (), _, _, perform_flushFrames_of_none world hNone,
        perform_flushFrames_of_none next hOther, h⟩

------------------------------------------------------------
-- Calls
------------------------------------------------------------

theorem Renewed.write
    (h : renewal.Renewed left right)
    (data : Bytes) :
    ∃ result s t,
      (ContainerWriter.write data).perform left = (result, s) ∧
      (ContainerWriter.write data).perform right = (result, t) ∧
      renewal.Renewed s t := by
  rcases left with ⟨writer, world⟩
  rcases right with ⟨other, next⟩
  have hFinished := h.finished_iff
  dsimp only at hFinished
  unfold ContainerWriter.write
  rw [Step.perform_bind_of_ok (perform_current writer world),
    Step.perform_bind_of_ok (perform_current other next)]
  by_cases hStage : writer.stage = .finished
  · rw [if_pos hStage, if_pos (hFinished.mpr hStage)]
    exact ⟨_, _, _, rfl, rfl, h⟩
  · rw [if_neg hStage, if_neg (mt hFinished.mp hStage)]
    by_cases hData : data.isEmpty = true
    · simp only [hData, Bool.not_true]
      exact ⟨.ok (), _, _, rfl, rfl, h⟩
    · simp only [hData, Bool.not_false, if_true]
      rcases h.openMember hStage with
        ⟨⟨opened, world'⟩, ⟨opened', next'⟩, hLeft, hRight, hOpen⟩
      have hEmission : opened.emission = writer.emission := by
        unfold emission
        rw [hOpen.renewed.checksums.1, h.checksums.1]
      have hOther : opened'.emission = other.emission := by
        unfold emission
        rw [hOpen.renewed.checksums.2, h.checksums.2]
      rw [Step.perform_bind_of_ok hLeft,
        Step.perform_bind_of_ok hRight, ← hEmission, ← hOther]
      rcases hOpen.regroup data with
        ⟨result, s, t, hFirst, hSecond, hNext⟩
      exact ⟨result, s, t, hFirst, hSecond, hNext.renewed⟩

/- Flushes change nothing of what has been laid out. -/
theorem Renewed.flushOutlet
    (h : renewal.Renewed left right) :
    ∃ s t,
      (onOutlet Outlet.flush).perform left = (.ok (), s) ∧
      (onOutlet Outlet.flush).perform right = (.ok (), t) ∧
      renewal.Renewed s t := by
  rcases left with ⟨writer, world⟩
  rcases right with ⟨other, next⟩
  rcases h with ⟨added, hLevel⟩ | hDue
  · rcases hLevel.used.flushOutlet with
      ⟨_, outlet, world', hLeft, hUsed, _, _, hOk⟩
    rcases hLevel.fresh.flushOutlet with
      ⟨_, outlet', next', hRight, hFresh, _, _, hOk'⟩
    cases hOk renewal.used_settled
    cases hOk' renewal.fresh_settled
    exact
      ⟨_, _, hLeft, hRight, .inl
        ⟨added, hUsed, hFresh, hLevel.regrouper, hLevel.stage⟩⟩
  · rcases hDue.used.flushOutlet with
      ⟨_, outlet, world', hLeft, hUsed, _, _, hOk⟩
    rcases hDue.fresh.flushOutlet with
      ⟨_, outlet', next', hRight, hFresh, _, _, hOk'⟩
    cases hOk renewal.used_settled
    cases hOk' renewal.fresh_settled
    exact
      ⟨_, _, hLeft, hRight, .inr
        ⟨hUsed, hFresh, hDue.regrouper, hDue.due, hDue.opened⟩⟩

theorem Renewed.flush
    (h : renewal.Renewed left right) :
    ∃ result s t,
      ContainerWriter.flush.perform left = (result, s) ∧
      ContainerWriter.flush.perform right = (result, t) ∧
      renewal.Renewed s t := by
  rcases h.flushFrames with ⟨result, s, t, hLeft, hRight, hNext⟩
  unfold ContainerWriter.flush
  cases result with
  | error e =>
    exact
      ⟨.error e, s, t, Step.perform_bind_of_error hLeft,
        Step.perform_bind_of_error hRight, hNext⟩
  | ok _ =>
    rcases hNext.flushOutlet with
      ⟨s', t', hFirst, hSecond, hLast⟩
    refine ⟨.ok (), s', t', ?_, ?_, hLast⟩
    · rw [Step.perform_bind_of_ok hLeft, hFirst]
    · rw [Step.perform_bind_of_ok hRight, hSecond]

/- Both lay out a terminator, and then the member is over. -/
theorem Open.terminate
    (h : renewal.Open left right)
    (hNone : left.1.regrouper.held.size = 0) :
    ∃ outlet world outlet' world',
      (onOutlet (Outlet.put Frame.terminator) >>= fun _ =>
          onOutlet Outlet.flush).perform left =
        (.ok (), { left.1 with outlet := outlet }, world) ∧
      (onOutlet (Outlet.put Frame.terminator) >>= fun _ =>
          onOutlet Outlet.flush).perform right =
        (.ok (), { right.1 with outlet := outlet' }, world') ∧
      renewal.Renewed
        ({ left.1 with outlet := outlet, stage := .finished },
          world)
        ({ right.1 with outlet := outlet', stage := .finished },
          world') := by
  rcases left with ⟨writer, w⟩
  rcases right with ⟨other, w'⟩
  rcases h with ⟨added, hLevel, hStage⟩
  have hOther : other.regrouper.held.size = 0 := by
    rw [hLevel.regrouper.held]
    exact hNone
  rcases hLevel.used.terminate hStage hNone with
    ⟨_, outlet, world, hLeft, hUsed, _, hOk⟩
  rcases hLevel.fresh.terminate (hLevel.stage.trans hStage)
    hOther with ⟨_, outlet', world', hRight, hFresh, _, hOk'⟩
  cases hOk renewal.used_settled
  cases hOk' renewal.fresh_settled
  have hBehind := hUsed rfl
  rw [List.append_assoc] at hBehind
  exact
    ⟨outlet, world, outlet', world', hLeft, hRight, .inl
      ⟨added ++ [.terminator], hBehind, hFresh rfl,
        hLevel.regrouper, rfl⟩⟩

/- The frames of earlier members are counted by one of them. -/
theorem Level.frames
    (h : renewal.Level added left right) :
    left.1.outlet.frames =
      Segment.frames renewal.before + right.1.outlet.frames := by
  rw [h.used.outlet.frames, h.fresh.outlet.frames,
    frames_append]

/-
  A finish ends the member of both, or fails for both. The
  frames of earlier members are counted by one of them.
-/
theorem Renewed.finish
    (h : renewal.Renewed left right) :
    ∃ result s t,
      ContainerWriter.finish.perform left =
        (result.map (Segment.frames renewal.before + ·), s) ∧
      ContainerWriter.finish.perform right = (result, t) ∧
      renewal.Renewed s t ∧
      ∀ n, result = .ok n → s.1.stage = .finished := by
  rcases left with ⟨writer, world⟩
  rcases right with ⟨other, next⟩
  have hFinished : other.stage = .finished ↔ _ := h.finished_iff
  unfold ContainerWriter.finish
  rw [Step.perform_bind_of_ok (perform_current writer world),
    Step.perform_bind_of_ok (perform_current other next)]
  by_cases hStage : writer.stage = .finished
  · rw [if_pos hStage, if_pos (hFinished.mpr hStage)]
    rcases h with ⟨added, hLevel⟩ | hDue
    · refine
        ⟨.ok other.outlet.frames, (writer, world), (other, next),
          ?_, rfl, .inl ⟨added, hLevel⟩, fun _ _ => hStage⟩
      rw [Except.map, ← hLevel.frames]
      rfl
    · cases hDue.due.symm.trans hStage
  rw [if_neg hStage, if_neg (mt hFinished.mp hStage)]
  rcases h.openMember hStage with ⟨s₁, t₁, hLeft, hRight, hOpen⟩
  rw [Step.perform_bind_of_ok hLeft,
    Step.perform_bind_of_ok hRight]
  rcases hOpen.flushFrames with
    ⟨result, s₂, t₂, hFirst, hSecond, hFlushed, hNone⟩
  cases result with
  | error e =>
    exact
      ⟨.error e, s₂, t₂, Step.perform_bind_of_error hFirst,
        Step.perform_bind_of_error hSecond, hFlushed.renewed,
        by simp⟩
  | ok _ =>
    rcases hFlushed.terminate (hNone rfl) with
      ⟨outlet, world', outlet', next', hEnded, hEnded', hOver⟩
    rw [Step.perform_bind_of_ok hFirst,
      Step.perform_bind_of_ok hSecond]
    refine
      ⟨.ok outlet'.frames, _, _, ?_, ?_, hOver, fun _ _ => rfl⟩
    · rw [← bind_assoc, Step.perform_bind_of_ok hEnded]
      rcases hOver with ⟨added, hLevel⟩ | hDue
      · rw [Except.map, ← hLevel.frames]
        rfl
      · cases hDue.due
    · rw [← bind_assoc, Step.perform_bind_of_ok hEnded']
      rfl

theorem Renewed.reset
    (h : renewal.Renewed left right) :
    ∃ s t,
      ContainerWriter.reset.perform left = (.ok (), s) ∧
      ContainerWriter.reset.perform right = (.ok (), t) ∧
      renewal.Renewed s t := by
  rcases left with ⟨writer, world⟩
  rcases right with ⟨other, next⟩
  have hResumes :=
    (Regrouper.tandem_resumes renewal.attempts).emptied
      h.regrouper
  rcases h with ⟨added, hLevel⟩ | hDue
  · rcases hLevel.used.reset with
      ⟨writer', hLeft, hUsed, hHeld⟩
    rcases hLevel.fresh.reset with
      ⟨other', hRight, hFresh, hHeld'⟩
    refine ⟨_, _, hLeft, hRight, .inl ⟨added, hUsed, hFresh, ?_, ?_⟩⟩
    · rw [hHeld, hHeld']
      exact hResumes
    · rw [stage_of_reset hLeft, stage_of_reset hRight,
        hLevel.stage]
  · rcases hDue.used.reset with ⟨writer', hLeft, hUsed, hHeld⟩
    rcases hDue.fresh.reset with ⟨other', hRight, hFresh, hHeld'⟩
    refine ⟨_, _, hLeft, hRight, .inr ⟨hUsed, hFresh, ?_, ?_, ?_⟩⟩
    · rw [hHeld, hHeld']
      exact hResumes
    · rw [stage_of_reset hLeft, hDue.due]
      rfl
    · rw [stage_of_reset hRight, hDue.opened]
      rfl

end Renewal

end SplitStream
