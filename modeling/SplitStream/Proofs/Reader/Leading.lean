import SplitStream.Proofs.Container.Cuts
import SplitStream.Proofs.Reader.Acceptance
import SplitStream.Proofs.Reader.Onward

/-
  Readers on their way through a container. Segments that
  lead to a frame are read one after another, and the reader
  that is left stands before whatever follows them.

  Main declarations:
    * `FrameReader.LeadsTo`
    * `ContainerReader.perform_readFrame_of_member`
    * `ContainerReader.Arrives`
    * `ContainerReader.arrives_of_leads`
-/

------------------------------------------------------------
-- Readers After Some Frames
------------------------------------------------------------

namespace SplitStream

namespace FrameReader

variable {ρ : Type} [FrameReader ρ]

/-
  A reader delivers blocks, and another one is left that may
  be asked for further frames.
-/
inductive LeadsTo : ρ → List Bytes → ρ → Prop where
  | here (reader : ρ) : LeadsTo reader [] reader
  | frame {reader next last : ρ} {blocks : List Bytes} :
      readFrame.perform reader = (.ok true, next) →
        LeadsTo next blocks last →
          LeadsTo reader ((staging next).ready :: blocks) last

/- What the reader that is left delivers comes last. -/
theorem LeadsTo.delivers
    {reader last : ρ}
    {blocks more : List Bytes}
    {failure : Option Error}
    (hLeads : LeadsTo reader blocks last)
    (hDelivers : Delivers last more failure) :
    Delivers reader (blocks ++ more) failure := by
  induction hLeads with
  | here _ => exact hDelivers
  | frame hRead _ ih => exact .frame hRead (ih hDelivers)

end FrameReader

------------------------------------------------------------
-- Members That Are Passed
------------------------------------------------------------

namespace ContainerReader

open FrameReader Segment

variable {reader next : ContainerReader}

theorem Before.ready
    {segments : List Segment}
    {tail : Bytes}
    (h : reader.Before segments tail) :
    reader.Ready :=
  ⟨h.stage, h.follow, h.fault⟩

/- A frame is looked for with nothing ready. -/
theorem perform_readFrame_eq
    (reader : ContainerReader) :
    readFrame.perform reader =
      (readFrameRounds (reader.source.remaining + 1)).perform
        (cleared reader) :=
  rfl

/- Behind a member that is passed, the same frame is read. -/
theorem perform_readFrame_of_member
    (hReady : reader.Ready)
    (hRound :
      round.perform (cleared reader) = (.ok .member, next)) :
    readFrame.perform reader = readFrame.perform next := by
  have hCleared : Ready (cleared reader) :=
    ⟨hReady.stage, hReady.follow, hReady.fault⟩
  have hMoves := movesOver_of_round hCleared hRound
  rcases hMoves.ready hCleared (by simp) with ⟨hNext, _, hLess⟩
  have hEmpty : cleared next = next := by
    cases hMoves with
    | member _ _ _ _ hSame =>
      rw [hSame]
      rfl
  calc readFrame.perform reader
      = (readFrameRounds (reader.source.remaining + 1)).perform
          (cleared reader) :=
        perform_readFrame_eq reader
    _ = (readFrameRounds reader.source.remaining).perform next :=
        perform_readFrameRounds _ hRound
    _ = (readFrameRounds (next.source.remaining + 1)).perform
          next :=
        perform_readFrameRounds_of_more _ next hLess
    _ = readFrame.perform next := by
        rw [perform_readFrame_eq, hEmpty]

------------------------------------------------------------
-- Arrival
------------------------------------------------------------

/-
  A reader has delivered blocks. The reader that is left
  reads the next frame as one does that stands before the
  tail, behind all members that are passed on the way.
-/
structure Arrives
    (reader : ContainerReader)
    (blocks : List Bytes)
    (checksums : Selection)
    (tail : Bytes)
    (before last : ContainerReader) : Prop where
  leads : LeadsTo reader blocks before
  same : readFrame.perform before = readFrame.perform last
  stands : last.Before [] tail
  checksums_eq : last.checksums = checksums
  codec_eq : last.codec = reader.codec
  frames_eq : last.frames = reader.frames + blocks.length

/- Members that are passed make no difference. -/
theorem Arrives.past
    {blocks : List Bytes}
    {checksums : Selection}
    {tail : Bytes}
    {before last : ContainerReader}
    (hArrives : next.Arrives blocks checksums tail before last)
    (hSame : readFrame.perform reader = readFrame.perform next)
    (hCodec : next.codec = reader.codec)
    (hFrames : next.frames = reader.frames) :
    ∃ before,
      reader.Arrives blocks checksums tail before last := by
  rcases hArrives with
    ⟨hLeads, hLast, hStands, hChecksums, hOther, hMore⟩
  cases hLeads with
  | here _ =>
    exact
      ⟨reader,
        { leads := .here reader
          same := hSame.trans hLast
          stands := hStands
          checksums_eq := hChecksums
          codec_eq := hOther.trans hCodec
          frames_eq := by rw [hMore, hFrames] }⟩
  | frame hRead hRest =>
    exact
      ⟨before,
        { leads := .frame (hSame.trans hRead) hRest
          same := hLast
          stands := hStands
          checksums_eq := hChecksums
          codec_eq := hOther.trans hCodec
          frames_eq := by rw [hMore, hFrames] }⟩

/-
  Segments that lead on are read, whatever stands behind
  them. The induction is on the segments; a member takes no
  frame of its own.
-/
theorem arrives_of_leads
    {first last : Selection}
    {segments : List Segment}
    {tail : Bytes}
    (hLeads : Leads first segments last)
    (reader : ContainerReader)
    (hBefore : reader.Before segments tail)
    (hChecksums : reader.checksums = first) :
    ∃ before after,
      reader.Arrives (Segment.blocks segments) last tail before
        after := by
  induction hLeads generalizing reader with
  | here checksums =>
    exact
      ⟨reader, reader,
        { leads := .here reader
          same := rfl
          stands := hBefore
          checksums_eq := hChecksums
          codec_eq := rfl
          frames_eq := rfl }⟩
  | @next _ _ fields rest hRegular _ ih =>
    have hCleared :
        Before (cleared reader)
          (.terminator :: .header fields :: rest) tail :=
      { hBefore with }
    rcases hCleared.perform_member hRegular with
      ⟨next, hRound, hNext, hSame, hFrames⟩
    have hMoves :=
      (movesOver_of_round hCleared.ready hRound).ready
        hCleared.ready (by simp)
    rcases ih next hNext hSame with ⟨_, after, hArrives⟩
    rcases hArrives.past
      (perform_readFrame_of_member hBefore.ready hRound)
      hMoves.2.1 hFrames with ⟨before, hPast⟩
    exact ⟨before, after, hPast⟩
  | @frame _ _ content rest hFits _ ih =>
    subst hChecksums
    have hCleared :
        Before (cleared reader)
          (.frame reader.checksums content :: rest) tail :=
      { hBefore with }
    rcases hCleared.perform_frame hFits with
      ⟨next, hRound, hNext, hSame, hReady, hFrames⟩
    have hMoves :=
      (movesOver_of_round hCleared.ready hRound).ready
        hCleared.ready (by simp)
    have hRead : readFrame.perform reader = (.ok true, next) :=
      perform_readFrameRounds _ hRound
    rcases ih next hNext hSame with ⟨before, after, hArrives⟩
    have hBlocks :
        Segment.blocks (.frame reader.checksums content :: rest) =
          next.staging.ready :: Segment.blocks rest := by
      rw [hReady]
      rfl
    refine ⟨before, after, ?_⟩
    exact
      { leads := by
          rw [hBlocks]
          exact .frame hRead hArrives.leads
        same := hArrives.same
        stands := hArrives.stands
        checksums_eq := hArrives.checksums_eq
        codec_eq := hArrives.codec_eq.trans hMoves.2.1
        frames_eq := by
          rw [hBlocks, List.length_cons, hArrives.frames_eq,
            hFrames]
          exact Nat.add_right_comm _ _ _ }

end ContainerReader

end SplitStream
