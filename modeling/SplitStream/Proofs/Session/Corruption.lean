import Mathlib
import SplitStream.Proofs.Checksum.Standard
import SplitStream.Proofs.Codec.Lossless
import SplitStream.Proofs.Reader.Corruption
import SplitStream.Proofs.Session.Outcome

/-
  Single bytes of a writer's container that are replaced. Where
  a checksum covers the byte, a reader refuses the frame that
  it belongs to, and delivers all other frames.

  Main declarations:
    * `WriterSession.Guards`
    * `WriterSession.guards_of_play`
-/

------------------------------------------------------------
-- Guarded Containers
------------------------------------------------------------

namespace SplitStream

namespace WriterSession

open Segment

variable
  {session : WriterSession}
  {course : Course ContainerWriter SinkPair}

/-
  The container of a session consists of segments with the
  data that was kept, and its frames record the checksums of
  the options. Whichever byte of a frame is replaced by
  another one, if a checksum covers it, a reader catches the
  error at this frame.
-/
structure Guards
    (session : WriterSession)
    (course : Course ContainerWriter SinkPair)
    (segments : List Segment) : Prop where
  complete : Complete segments
  received : layout segments = course.world.data.contents
  kept : Segment.contents segments = course.kept
  frames :
    Segment.frames segments = FrameWriter.frames course.writer
  records :
    ∀ checksums content,
      .frame checksums content ∈ segments →
        checksums = session.options.checksums
  catches :
    ∀ (front back : List Segment) (content : PackedBlock)
        (k : Nat) (b : UInt8) (schedule : Schedule),
      segments =
          front ++
            .frame session.options.checksums content :: back →
      content.Covered session.options.checksums k →
      (content.encode session.options.checksums)[k]? ≠ some b →
        ContainerReader.Catches session.codec
          (.atPosition
            (course.world.data.contents.set
              ((layout front).length + k) b)
            0 none schedule)
          (Segment.blocks front) (Segment.blocks back)

/- Frames record what the headers before them tell. -/
theorem Outcome.records
    {segments : List Segment}
    {checksums : Selection}
    {content : PackedBlock}
    (h : session.Outcome course segments)
    (hComplete : Complete segments)
    (hFrame : .frame checksums content ∈ segments) :
    checksums = session.options.checksums := by
  rcases List.append_of_mem hFrame with ⟨front, back, rfl⟩
  have hFront : Uniform session.options.checksums front := by
    intro fields hFields
    exact h.uniform fields (List.mem_append_left _ hFields)
  rcases hComplete.at_frame hFront rfl with
    ⟨_, _, _, _, _, hFramed⟩
  cases hFramed with
  | frame _ _ => rfl

/-
  The checksums are the usual ones, and whole members that a
  codec without loss has packed are guarded by them.
-/
theorem guards_of_play
    (hData : session.data.Accepting)
    (hIndex : session.index.Reliable)
    (hCodec : session.codec.Lossless)
    (hPlay : session.play = .ok course)
    (hWhole : session.data.Reliable ∨ course.torn = false) :
    (∀ (kind : Checksum) bs,
      kind.compute bs = kind.standard bs) ∧
      ∃ segments, session.Guards course segments := by
  rcases outcome_of_play hData hIndex hPlay with
    ⟨segments, hOutcome, hReliable⟩
  have hComplete :=
    hOutcome.complete (hWhole.elim hReliable id)
  refine ⟨Checksum.compute_eq_standard, segments, ?_⟩
  exact
    { complete := hComplete
      received := hOutcome.received.symm
      kept := hOutcome.kept.symm
      frames := hOutcome.frames.symm
      records := fun _ _ => hOutcome.records hComplete
      catches := by
        rintro front back content k b schedule rfl hCovered
          hOther
        have hInside := ContainerReader.lt_of_covered hCovered
        rw [hOutcome.received]
        exact
          ContainerReader.catches_of_complete hComplete
            (hOutcome.readable hCodec) hCovered
            (Bytes.set_ne hInside hOther) rfl rfl }

/-
  Two members with all checksums, the first one with a packed
  frame and a stored one.
-/
def guardedMembers : WriterSession where
  codec := .runLength
  options :=
    { WriterOptions.standard with
      blockSize := 4
      checksums := .full }
  clock := 0
  data := .willing
  index := .willing
  before := []
  indexed := false
  after :=
    [.write [1, 1, 1, 1, 2], .finish, .reset, .write [3, 3, 3, 3]]
  ending := .close

/-
  The first byte of the checksums of the first frame is
  replaced. The reader refuses this frame, and delivers the
  other ones.
-/
theorem guards_of_play_of_guardedMembers :
    ∃ course segments,
      guardedMembers.play = .ok course ∧
      course.kept = [1, 1, 1, 1, 2, 3, 3, 3, 3] ∧
      guardedMembers.Guards course segments ∧
      ∃ front content back b,
        segments =
          front ++ .frame .full content :: back ∧
        Segment.frames front = 0 ∧
        content.Covered .full 8 ∧
        (content.encode .full)[8]? ≠ some b ∧
        ContainerReader.Catches .runLength
          (.ofBytes
            (course.world.data.contents.set
              ((layout front).length + 8) b))
          [] (Segment.blocks back) := by
  have hEnd :
      guardedMembers.play.map
          (fun course =>
            (FrameWriter.frames course.writer, course.kept)) =
        .ok (3, [1, 1, 1, 1, 2, 3, 3, 3, 3]) := by
    cbv
  rcases play_of_map hEnd with ⟨course, hPlay, hView⟩
  rcases Prod.mk.inj hView with ⟨hFrames, hKept⟩
  have hWilling : guardedMembers.data.Reliable :=
    Conduct.reliable_willing
  rcases guards_of_play hWilling.1 Conduct.reliable_willing
    Codec.runLength_lossless hPlay (.inl hWilling) with
    ⟨_, segments, hGuards⟩
  have hSome : 0 < Segment.frames segments := by
    rw [hGuards.frames, hFrames]
    decide
  rcases exists_frame hSome with
    ⟨front, segment, back, hSplit, hFrame, hFirst⟩
  have hNone : Segment.blocks front = [] := by
    rw [← List.length_eq_zero_iff, length_blocks]
    exact hFirst
  cases segment with
  | header fields => cases hFrame
  | terminator => cases hFrame
  | frame checksums content =>
    have hMem : .frame checksums content ∈ segments := by
      rw [hSplit]
      exact List.mem_append_right _ List.mem_cons_self
    have hFull : checksums = .full :=
      hGuards.records checksums content hMem
    subst hFull
    have hCovered : content.Covered .full 8 := by
      apply PackedBlock.Covered.sum (Nat.le_refl 8)
      have hCount : Selection.full.count .plain = 2 := rfl
      rw [PackedBlock.payloadStart, Frame.sumCount, hCount,
        Frame.headerSize]
      omega
    have hOther :
        ∃ b, (content.encode .full)[8]? ≠ some b := by
      rcases (content.encode .full)[8]? with _ | a
      · exact ⟨0, by simp⟩
      · refine ⟨a + 1, ?_⟩
        intro hSame
        have hByte := congrArg UInt8.toNat (Option.some.inj hSame)
        have hLess := a.toNat_lt
        rw [UInt8.toNat_add] at hByte
        simp at hByte
        omega
    rcases hOther with ⟨b, hOther⟩
    have hCatches :=
      hGuards.catches front back content 8 b .prompt hSplit
        hCovered hOther
    rw [hNone] at hCatches
    exact
      ⟨course, segments, hPlay, hKept, hGuards, front, content,
        back, b, hSplit, hFirst, hCovered, hOther, hCatches⟩

end WriterSession

end SplitStream
