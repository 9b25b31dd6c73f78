import SplitStream.Proofs.Reader.Acceptance
import SplitStream.Proofs.Reader.Draining
import SplitStream.Proofs.Reader.Rejection
import SplitStream.Proofs.Session.Pieces

/-
  Two ways of reading several members. A reader that follows
  members goes on behind a terminator by itself; one that does
  not is reset there and reads the header as a new one. Both
  find the same members, with the same checksums, and come to
  the same data.

  Main declarations:
    * `Member`
    * `ContainerReader.relay`
    * `ContainerReader.Drained`
    * `ContainerReader.round_apart`
    * `ContainerReader.splits_of_walk`
    * `ContainerReader.AgreesByResets`
    * `ContainerReader.resets_agree_with_following`
-/

------------------------------------------------------------
-- Members
------------------------------------------------------------

namespace SplitStream

/- A member of a container: its header and its blocks. -/
structure Member where
  header : Header
  contents : List PackedBlock

namespace Member

/- The checksums that the frames of a member hold. -/
def checksums
    (member : Member) : Selection :=
  .ofFlags member.header.flags

/- The blocks of a member, one for each frame. -/
def blocks
    (member : Member) : List Bytes :=
  member.contents.map PackedBlock.block

def data
    (member : Member) : Bytes :=
  member.blocks.flatten

/- What follows the header: the frames and a terminator. -/
def body
    (member : Member) : Bytes :=
  Segment.layout
    (member.contents.map (.frame member.checksums) ++
      [.terminator])

def encode
    (member : Member) : Bytes :=
  member.header.encode ++ member.body

/- Members that are laid out one after another. -/
def layout
    (members : List Member) : Bytes :=
  members.flatMap encode

/- A member that readers with a codec accept. -/
structure Fits
    (codec : Codec)
    (member : Member) : Prop where
  regular : member.header.Regular
  method : member.header.method = codec.method
  contents : ∀ content ∈ member.contents, content.Fits

theorem body_cons
    (fields : Header)
    (content : PackedBlock)
    (contents : List PackedBlock) :
    body ⟨fields, content :: contents⟩ =
      Segment.layout [.frame (.ofFlags fields.flags) content] ++
        body ⟨fields, contents⟩ := by
  unfold body checksums
  simp only [List.map_cons, List.cons_append,
    Segment.layout_cons, Segment.layout_nil, List.append_nil]

end Member

------------------------------------------------------------
-- Relays
------------------------------------------------------------

namespace ContainerReader

open FrameReader Reading Step

/-
  Drain a reader a number of times and reset it after each.
  What was collected is returned, and the reader that is left.
-/
def relay :
    Nat → ContainerReader →
      List (Collected ContainerReader) × ContainerReader
  | 0, reader => ([], reader)
  | n + 1, reader =>
      let found := drain reader
      let (others, last) := relay n found.reader.reset
      (found :: others, last)

/-
  The reader stands right behind the terminator of a member
  that begins at a position, and checks as the member does.
-/
structure Closes
    (last : ContainerReader)
    (start : Nat)
    (member : Member) : Prop where
  finished : last.isFinished = true
  header : last.header = member.header
  checksums : last.checksums = member.checksums
  position : last.source.position = start + member.encode.length

/-
  What was collected is the data of a member. `frames` is the
  number of frames that had been read before.
-/
structure HoldsMember
    (found : Collected ContainerReader)
    (start frames : Nat)
    (member : Member) : Prop where
  clean : found.failure = none
  data : found.bytes.toBytes = member.data
  frames : found.reader.frames = frames + member.contents.length
  closes : found.reader.Closes start member

/-
  Members were drained one by one: the first begins at the
  given position, and each further one where the reader stood
  when the one before it had been drained.
-/
inductive Drained :
    Nat → Nat → List Member → List (Collected ContainerReader) →
      Prop where
  | done {start frames : Nat} : Drained start frames [] []
  | member {start frames : Nat} {member : Member}
      {members : List Member}
      {found : Collected ContainerReader}
      {others : List (Collected ContainerReader)} :
      HoldsMember found start frames member →
      Drained found.reader.source.position found.reader.frames
        members others →
        Drained start frames (member :: members) (found :: others)

/-
  A reader relays members: its drains collect them, and it is
  left before a tail, where it would read a header.
-/
structure Relays
    (reader : ContainerReader)
    (start : Nat)
    (members : List Member)
    (tail : Bytes) : Prop where
  drained :
    Drained start reader.frames members
      (relay members.length reader).1
  due : (relay members.length reader).2.stage = .headerDue
  fault : (relay members.length reader).2.source.fault = none
  rest : (relay members.length reader).2.source.rest = tail
  data :
    ((relay members.length reader).1.map fun found =>
        found.bytes.toBytes).flatten =
      (members.flatMap Member.blocks).flatten
  frames :
    (relay members.length reader).2.frames =
      reader.frames + (members.flatMap Member.blocks).length

theorem relays_nil
    {reader : ContainerReader}
    (hStage : reader.stage = .headerDue)
    (hFault : reader.source.fault = none)
    (start : Nat) :
    reader.Relays start [] reader.source.rest where
  drained := .done
  due := hStage
  fault := hFault
  rest := rfl
  data := rfl
  frames := rfl

/- The reader that has drained a member relays the others. -/
theorem Relays.cons
    {reader last : ContainerReader}
    {start : Nat}
    {member : Member}
    {members : List Member}
    {tail : Bytes}
    (hEmpties : Empties reader member.blocks none last)
    (hCloses : last.Closes start member)
    (hOthers :
      last.reset.Relays last.source.position members tail) :
    reader.Relays start (member :: members) tail := by
  rcases orderly.drain_of_empties hEmpties with
    ⟨bytes, hDrain, hBytes⟩
  have hFrames := frames_of_empties hEmpties
  rw [Member.blocks, List.length_map] at hFrames
  have hRelay :
      relay (member :: members).length reader =
        (⟨bytes, none, last⟩ ::
            (relay members.length last.reset).1,
          (relay members.length last.reset).2) := by
    rw [List.length_cons, relay, hDrain]
  exact
    { drained := by
        rw [hRelay]
        exact
          .member
            { clean := rfl
              data := hBytes
              frames := hFrames
              closes := hCloses }
            hOthers.drained
      due := by rw [hRelay, hOthers.due]
      fault := by rw [hRelay, hOthers.fault]
      rest := by rw [hRelay, hOthers.rest]
      data := by
        rw [hRelay, List.map_cons, List.flatten_cons, hBytes,
          hOthers.data, List.flatMap_cons, List.flatten_append]
      frames := by
        rw [hRelay, hOthers.frames, List.flatMap_cons,
          List.length_append, Member.blocks, List.length_map]
        change last.frames + _ = _
        omega }

/- Where no header is left, the next call is cut short. -/
theorem readFrame_of_no_header
    {reader : ContainerReader}
    (hStage : reader.stage = .headerDue)
    (hFault : reader.source.fault = none)
    (hShort : reader.source.rest.length < 9) :
    (readFrame.perform reader).1 = .error (.truncated .magic) := by
  have hDue : (cleared reader).stage = .headerDue := hStage
  rcases perform_exactly (.truncated .magic) 9 reader.source
    hFault with ⟨source, hMagic, _⟩
  rw [if_pos hShort] at hMagic
  have hHeader :
      Header.read.perform reader.source =
        (.error (.truncated .magic), source) := by
    unfold Header.read
    exact perform_bind_of_error hMagic
  have hRead :
      (onSource Header.read).perform (cleared reader) =
        (.error (.truncated .magic),
          (cleared reader).facing source) := by
    unfold onSource
    rw [perform_within]
    change
      ((Header.read.perform reader.source).1,
        (cleared reader).facing
          (Header.read.perform reader.source).2) =
        _
    rw [hHeader]
  have hRound :
      round.perform (cleared reader) =
        (.error (.truncated .magic),
          (cleared reader).facing source) := by
    rw [perform_round_of_due hDue]
    exact perform_bind_of_error (perform_bind_of_error hRead)
  rw [perform_readFrame_eq, perform_readFrameRounds _ hRound]

------------------------------------------------------------
-- Rounds
------------------------------------------------------------

/-
  The first reader follows members. It is like the second one
  would be if that were told to follow them, too.
-/
def Heeds
    (left right : ContainerReader) : Prop :=
  left.Alike (right.follow true)

/- Whether members are followed matters to no single frame. -/
theorem likeness_heeds : Likeness Source.Alike Heeds where
  near := resemblance.near
  source := fun _ _ hHeeds => hHeeds.source
  codec := fun _ _ hHeeds => hHeeds.codec
  checksums := fun _ _ hHeeds => hHeeds.checksums
  moved := fun _ _ _ _ hHeeds hSource =>
    { hHeeds with source := hSource }
  entered := fun _ _ _ hHeeds =>
    { hHeeds with header := rfl, checksums := rfl, stage := rfl }
  settle :=
    lockstep_settle_of_staging
      (fun _ _ hHeeds => hHeeds.codec)
      (fun _ _ hHeeds => hHeeds.staging)
      fun _ _ _ n hHeeds =>
        { hHeeds with
          staging := rfl
          frames := congrArg (· + n) hHeeds.frames }

/- A reader that stands before a frame and follows nothing. -/
structure Plain
    (reader : ContainerReader) : Prop where
  stage : reader.stage = .frames
  follow : reader.followMembers = false
  fault : reader.source.fault = none

/- Behind a terminator, nothing is looked for. -/
theorem perform_proceed_of_plain
    (reader : ContainerReader)
    (hFollow : reader.followMembers = false) :
    (proceed (some 0)).perform reader =
      (.ok .ended, { reader with stage := .ended }) := by
  have hEnds : ¬ reader.followMembers = true := by
    rw [hFollow]
    exact Bool.false_ne_true
  rw [proceed, perform_bind_of_ok (perform_modify _ _),
    perform_bind_of_ok (perform_get _), if_neg hEnds]
  rfl

/- The reader that has ended behind a terminator. -/
def closedAt
    (reader : ContainerReader)
    (source : Source) : ContainerReader :=
  { cleared reader with source := source, stage := .ended }

/-
  A frame is found by both readers. Where one of them finds a
  terminator and looks behind it, the other one has ended.
-/
theorem round_apart
    {left right next : ContainerReader}
    {found : Round}
    (hHeeds : left.Heeds (cleared right))
    (hPlain : right.Plain)
    (hRound : round.perform left = (.ok found, next)) :
    (found = .frame ∧
      ∃ other,
        round.perform (cleared right) = (.ok .frame, other) ∧
        next.Heeds other ∧
        other.followMembers = false) ∨
    (found ≠ .frame ∧
      ∃ source,
        round.perform (cleared right) =
          (.ok .ended, right.closedAt source) ∧
        right.source.Ahead source 4) := by
  have hStage : left.stage = .frames :=
    hHeeds.stage.trans hPlain.stage
  have hCleared : (cleared right).stage = .frames := hPlain.stage
  have hFault : (cleared right).source.fault = none := hPlain.fault
  rw [perform_round hStage] at hRound
  rw [perform_round hCleared]
  rcases likeness_heeds.onSource oblivious_frameStart left
    (cleared right) hHeeds with
    ⟨e | start, s, t, hLeft, hRight, hBoth⟩ | ⟨_, _, _, hLost⟩
  · rw [perform_bind_of_error hLeft] at hRound
    cases hRound
  · rw [perform_bind_of_ok hLeft] at hRound
    rw [perform_bind_of_ok hRight]
    rcases ok_of_onSource yields_frameStart hFault hRight with
      ⟨source, bs, rfl, hWord, _, hAhead⟩
    rcases start with _ | _ | n
    · cases hRound
    · right
      have hFollow : s.followMembers = true := hBoth.follow
      rw [perform_proceed s hFollow] at hRound
      have hFound : found ≠ .frame := by
        rcases hNext :
            nextMember.perform { s with stage := .ended } with
          ⟨e | more, after⟩
        · rw [perform_map, hNext] at hRound
          cases hRound
        · rw [perform_map, hNext] at hRound
          cases more <;> cases hRound <;> exact Round.noConfusion
      refine ⟨hFound, source, ?_, ?_⟩
      · exact perform_proceed_of_plain _ hPlain.follow
      · rw [(hWord 0 rfl).1] at hAhead
        exact hAhead
    · left
      rcases likeness_heeds.decodeFrame (n + 1) s _ hBoth with
        ⟨e | ⟨⟩, s', t', hHere, hThere, hSame⟩ | ⟨_, _, _, hLost⟩
      · rw [proceed, perform_bind_of_error hHere] at hRound
        · cases hRound
        · simp
      · rw [proceed, perform_bind_of_ok hHere] at hRound
        · cases hRound
          rcases goesOn_of_decodeFrame hThere with
            ⟨middle, hGoes, _, hDone⟩
          refine ⟨rfl, t', ?_, hSame, ?_⟩
          · rw [proceed, perform_bind_of_ok hThere]
            · rfl
            · simp
          · rw [hDone rfl]
            exact hGoes.follow.trans hPlain.follow
        · simp
      · exact hLost.elim
  · exact hLost.elim

/- A round that ends ends the call for a frame. -/
theorem readFrame_of_ended
    {reader last : ContainerReader}
    (hRound : round.perform (cleared reader) = (.ok .ended, last)) :
    readFrame.perform reader = (.ok false, last) :=
  perform_readFrameRounds _ hRound

theorem readFrame_of_found
    {reader next : ContainerReader}
    (hRound : round.perform (cleared reader) = (.ok .frame, next)) :
    readFrame.perform reader = (.ok true, next) :=
  perform_readFrameRounds _ hRound

------------------------------------------------------------
-- Walks And Relays
------------------------------------------------------------

/-
  A reader stands before the frames of a member that is its
  own. It empties them, and relays the members behind them
  if it is reset where it is left.
-/
structure Splits
    (reader : ContainerReader)
    (contents : List PackedBlock)
    (members : List Member)
    (tail : Bytes)
    (last : ContainerReader) : Prop where
  empties :
    Empties reader (contents.map PackedBlock.block) none last
  finished : last.isFinished = true
  header : last.header = reader.header
  checksums : last.checksums = .ofFlags reader.header.flags
  rest :
    reader.source.rest =
      Member.body ⟨reader.header, contents⟩ ++
        (Member.layout members ++ tail)
  ahead :
    reader.source.Ahead last.source
      (Member.body ⟨reader.header, contents⟩).length
  stop : tail.take 9 ≠ Container.magic
  contents_fit : ∀ content ∈ contents, content.Fits
  members_fit : ∀ member ∈ members, member.Fits reader.codec
  relays : last.reset.Relays last.source.position members tail

/- The reader that has split a member off has closed it. -/
theorem Splits.closes
    {reader last : ContainerReader}
    {contents : List PackedBlock}
    {members : List Member}
    {tail : Bytes}
    (h : reader.Splits contents members tail last)
    {start : Nat}
    (hStart :
      reader.source.position =
        start + reader.header.encode.length) :
    last.Closes start ⟨reader.header, contents⟩ where
  finished := h.finished
  header := h.header
  checksums := h.checksums
  position := by
    rw [h.ahead.position, hStart, Member.encode,
      List.length_append, Nat.add_assoc]

/- Before a terminator, nothing of the member is left. -/
theorem splits_of_terminator
    {reader : ContainerReader}
    {source : Source}
    {members : List Member}
    {tail : Bytes}
    (hChecksums :
      reader.checksums = .ofFlags reader.header.flags)
    (hRound :
      round.perform (cleared reader) =
        (.ok .ended, reader.closedAt source))
    (hAhead : reader.source.Ahead source 4)
    (hRest :
      reader.source.rest =
        Frame.length 0 ++ (Member.layout members ++ tail))
    (hStop : tail.take 9 ≠ Container.magic)
    (hFit : ∀ member ∈ members, member.Fits reader.codec)
    (hRelays :
      (reader.closedAt source).reset.Relays source.position members
        tail) :
    reader.Splits [] members tail (reader.closedAt source) where
  empties := .ended (readFrame_of_ended hRound)
  finished := rfl
  header := rfl
  checksums := hChecksums
  rest := hRest
  ahead := hAhead
  stop := hStop
  contents_fit := by simp
  members_fit := hFit
  relays := hRelays

/-
  Behind a terminator where a header follows, the reset reader
  reads the header and relays the member and those behind it.
-/
theorem relays_of_due
    {reader last : ContainerReader}
    {fields : Header}
    {contents : List PackedBlock}
    {members : List Member}
    {tail : Bytes}
    {source : Source}
    (hEmpty : cleared reader = reader)
    (hRound :
      round.perform reader =
        round.perform ((reader.enter fields).facing source))
    (hAhead : reader.source.Ahead source fields.encode.length)
    (hSplits :
      ((reader.enter fields).facing source).Splits contents
        members tail last) :
    reader.Relays reader.source.position
      (⟨fields, contents⟩ :: members) tail := by
  have hSame :
      readFrame.perform reader =
        readFrame.perform
          ((reader.enter fields).facing source) := by
    rw [perform_readFrame_eq, perform_readFrame_eq, hEmpty]
    have hAfter :
        cleared ((reader.enter fields).facing source) =
          (reader.enter fields).facing source :=
      congrArg (fun other => (other.enter fields).facing source)
        hEmpty
    rw [hAfter]
    exact search_of_round hRound hAhead.remaining_le
  exact
    .cons (hSplits.empties.of_same hSame)
      (hSplits.closes hAhead.position) hSplits.relays

/- A frame stands before what a reader splits off behind it. -/
theorem Splits.frame
    {reader next last : ContainerReader}
    {contents : List PackedBlock}
    {members : List Member}
    {tail : Bytes}
    (h : next.Splits contents members tail last)
    (hRound :
      round.perform (cleared reader) = (.ok .frame, next))
    (hMoves : (cleared reader).MovesOver next .frame)
    (hChecksums :
      reader.checksums = .ofFlags reader.header.flags) :
    ∃ content,
      next.staging.ready = content.block ∧
      reader.Splits (content :: contents) members tail last := by
  cases hMoves with
  | @frame content hFits hRest hAhead hSame hBlock _ =>
    have hHeader : next.header = reader.header := by
      rw [hSame]
      rfl
    have hCodec : next.codec = reader.codec := by
      rw [hSame]
      rfl
    have hKinds :
        (cleared reader).checksums =
          .ofFlags reader.header.flags :=
      hChecksums
    have hBehind := h.ahead
    rw [hKinds] at hRest hAhead
    rw [hHeader] at hBehind
    refine ⟨content, hBlock, ?_⟩
    exact
      { empties := by
          rw [List.map_cons, ← hBlock]
          exact .frame (readFrame_of_found hRound) h.empties
        finished := h.finished
        header := h.header.trans hHeader
        checksums := by rw [h.checksums, hHeader]
        rest := by
          rw [Member.body_cons, List.append_assoc, ← hHeader,
            ← h.rest, hHeader]
          exact hRest
        ahead := by
          rw [Member.body_cons, List.length_append]
          exact hAhead.trans hBehind
        stop := h.stop
        contents_fit := by
          intro other hOther
          rcases List.mem_cons.mp hOther with rfl | hOther
          · exact hFits
          · exact h.contents_fit other hOther
        members_fit := by
          rw [← hCodec]
          exact h.members_fit
        relays := h.relays }

/- Both readers have moved over the same frame. -/
theorem MovesOver.frame_of_heeds
    {left right next other : ContainerReader}
    (hMoves : left.MovesOver next .frame)
    (hHeeds : left.Heeds (cleared right))
    (hBoth : next.Heeds other)
    (hFollow : other.followMembers = right.followMembers) :
    (cleared right).MovesOver other .frame := by
  cases hMoves with
  | @frame content hFits hRest hAhead hSame hBlock hFills =>
    have hKinds : left.checksums = (cleared right).checksums :=
      hHeeds.checksums
    have hCodec : left.codec = (cleared right).codec :=
      hHeeds.codec
    have hStaging : left.staging = (cleared right).staging :=
      hHeeds.staging
    rw [hKinds] at hRest hAhead
    rw [hCodec, hStaging] at hFills
    refine .frame hFits ?_ ?_ ?_ ?_ hFills
    · calc right.source.rest
          = left.source.rest := hHeeds.source.rest.symm
        _ = _ ++ next.source.rest := hRest
        _ = _ ++ other.source.rest := by rw [hBoth.source.rest]; rfl
    · exact hHeeds.source.moved hAhead hBoth.source
    · have hNext :
          next.codec = left.codec ∧
          next.header = left.header ∧
          next.checksums = left.checksums ∧
          next.stage = left.stage ∧
          next.frames = left.frames + 1 := by
        rw [hSame]
        exact ⟨rfl, rfl, rfl, rfl, rfl⟩
      rcases hNext with
        ⟨hCodec, hHeader, hChecksums, hStage, hFrames⟩
      rcases other with
        ⟨source, codec, header, checksums, staging, stage, follow,
          frames⟩
      obtain rfl : codec = right.codec :=
        (hBoth.codec.symm.trans hCodec).trans hHeeds.codec
      obtain rfl : header = right.header :=
        (hBoth.header.symm.trans hHeader).trans hHeeds.header
      obtain rfl : checksums = right.checksums :=
        (hBoth.checksums.symm.trans hChecksums).trans
          hHeeds.checksums
      obtain rfl : stage = right.stage :=
        (hBoth.stage.symm.trans hStage).trans hHeeds.stage
      obtain rfl : follow = right.followMembers := hFollow
      obtain rfl : frames = right.frames + 1 :=
        (hBoth.frames.symm.trans hFrames).trans
          (congrArg (· + 1) hHeeds.frames)
      rfl
    · exact
        (congrArg (fun staging => staging.ready)
          hBoth.staging).symm.trans hBlock

/-
  The header behind a terminator has been entered: by the one
  reader in the round itself, and by the other one in the
  round that follows its reset.
-/
structure Enters
    (next right : ContainerReader)
    (source after : Source)
    (fields : Header) : Prop where
  regular : fields.Regular
  method : fields.method = right.codec.method
  rest :
    right.source.rest =
      Frame.length 0 ++ (fields.encode ++ after.rest)
  ahead : source.Ahead after fields.encode.length
  due :
    round.perform (right.closedAt source).reset =
      round.perform
        (((right.closedAt source).reset.enter fields).facing after)
  heeds :
    next.Heeds
      (((right.closedAt source).reset.enter fields).facing after)
  plain :
    Plain
      (((right.closedAt source).reset.enter fields).facing after)

theorem exists_enters
    {left next right : ContainerReader}
    {source : Source}
    (hHeeds : left.Heeds (cleared right))
    (hPlain : right.Plain)
    (hReady : left.Ready)
    (hMoves : left.MovesOver next .member)
    (hAhead : right.source.Ahead source 4) :
    ∃ fields after, Enters next right source after fields := by
  have hNext := (hMoves.ready hReady (by simp)).1
  cases hMoves with
  | @member fields hRegular hMethod hRest hBeyond hSame =>
    have hCodec : left.codec = right.codec := hHeeds.codec
    have hRest :
        right.source.rest =
          Frame.length 0 ++ (fields.encode ++ next.source.rest) :=
      calc right.source.rest
          = left.source.rest := hHeeds.source.rest.symm
        _ = _ := hRest
        _ = _ := by
          simp [Segment.encode, Frame.terminator, Frame.length]
    have hFault := hAhead.fault.trans hPlain.fault
    let fresh := (right.closedAt source).reset
    have hFresh : fresh.stage = .headerDue := rfl
    rcases round_of_due hFresh hRegular
      (hMethod.trans (congrArg _ hCodec)) hFault
      (hAhead.rest_of_eq hRest rfl) with ⟨after, hDue, hBehind⟩
    have hSource : next.source.Alike after := by
      have hLength :
          (Segment.layout [.terminator, .header fields]).length =
            4 + fields.encode.length := by
        simp [Segment.encode, Frame.terminator, Frame.length]
      rw [hLength] at hBeyond
      exact hHeeds.source.ahead hBeyond (hAhead.trans hBehind)
    refine
      ⟨fields, after,
        { regular := hRegular
          method := hMethod.trans (congrArg _ hCodec)
          rest := by rw [hRest, hSource.rest]
          ahead := hBehind
          due := hDue
          heeds := ?_
          plain :=
            ⟨rfl, hPlain.follow,
              hSource.fault.symm.trans hNext.fault⟩ }⟩
    rw [hSame]
    exact
      { hHeeds with
        source := hSource
        header := rfl
        checksums := rfl
        stage := hReady.stage }

/- The member that was entered is the first one to be relayed. -/
theorem Enters.splits
    {next right last : ContainerReader}
    {source after : Source}
    {fields : Header}
    {contents : List PackedBlock}
    {members : List Member}
    {tail : Bytes}
    (h : Enters next right source after fields)
    (hRound :
      round.perform (cleared right) =
        (.ok .ended, right.closedAt source))
    (hAhead : right.source.Ahead source 4)
    (hChecksums :
      right.checksums = .ofFlags right.header.flags)
    (hSplits :
      (((right.closedAt source).reset.enter fields).facing
        after).Splits contents members tail last) :
    right.Splits [] (⟨fields, contents⟩ :: members) tail
      (right.closedAt source) := by
  have hRelays := relays_of_due rfl h.due h.ahead hSplits
  apply
    splits_of_terminator hChecksums hRound hAhead _ hSplits.stop _
      hRelays
  · have hBehind := hSplits.rest
    change after.rest = _ at hBehind
    rw [h.rest, hBehind]
    simp only [Member.layout, List.flatMap_cons, Member.encode,
      List.append_assoc]
    rfl
  · intro member hMember
    rcases List.mem_cons.mp hMember with rfl | hMember
    · exact
        { regular := h.regular
          method := h.method
          contents := hSplits.contents_fit }
    · exact hSplits.members_fit member hMember

/-
  What a reader that follows members walks over, a reader that
  does not splits into members. The induction is on the walk:
  a frame goes to the member at hand, and a further member is
  where the other reader has ended and is reset.
-/
theorem splits_of_walk
    {left : ContainerReader}
    {found : List (Nat × Bytes)}
    {failure : Option Error}
    (hWalks : Walks round left found failure)
    (hClean : failure = none)
    (hReady : left.Ready)
    (right : ContainerReader)
    (hHeeds : left.Heeds (cleared right))
    (hPlain : right.Plain)
    (hChecksums :
      right.checksums = .ofFlags right.header.flags) :
    ∃ contents members tail last,
      right.Splits contents members tail last ∧
      found.map Prod.snd =
        (Member.mk right.header contents :: members).flatMap
          Member.blocks := by
  induction hWalks generalizing right with
  | failed _ => cases hClean
  | ended hRound =>
    rcases round_apart hHeeds hPlain hRound with
      ⟨hFrame, _⟩ | ⟨_, source, hEnd, hAhead⟩
    · cases hFrame
    cases movesOver_of_round hReady hRound with
    | @last tail hRest hStop =>
      have hRest :
          right.source.rest = Frame.length 0 ++ ([] ++ tail) :=
        hHeeds.source.rest.symm.trans hRest
      have hTail : source.rest = tail :=
        hAhead.rest_of_eq hRest rfl
      have hRelays :
          (right.closedAt source).reset.Relays source.position []
            source.rest :=
        relays_nil rfl (hAhead.fault.trans hPlain.fault) _
      rw [hTail] at hRelays
      exact
        ⟨[], [], tail, right.closedAt source,
          splits_of_terminator hChecksums hEnd hAhead hRest hStop
            (by simp) hRelays,
          rfl⟩
  | member hRound _ ih =>
    rcases round_apart hHeeds hPlain hRound with
      ⟨hFrame, _⟩ | ⟨_, source, hEnd, hAhead⟩
    · cases hFrame
    have hMoves := movesOver_of_round hReady hRound
    have hNext := (hMoves.ready hReady (by simp)).1
    rcases exists_enters hHeeds hPlain hReady hMoves hAhead with
      ⟨fields, after, hEnters⟩
    let entered : ContainerReader :=
      ((right.closedAt source).reset.enter fields).facing after
    rcases ih hClean hNext entered hEnters.heeds hEnters.plain rfl
      with ⟨contents, members, tail, last, hSplits, hBlocks⟩
    exact
      ⟨[], ⟨fields, contents⟩ :: members, tail,
        right.closedAt source,
        hEnters.splits hEnd hAhead hChecksums hSplits, hBlocks⟩
  | frame hRound _ ih =>
    have hMoves := movesOver_of_round hReady hRound
    have hNext := (hMoves.ready hReady (by simp)).1
    rcases round_apart hHeeds hPlain hRound with
      ⟨_, other, hFrame, hBoth, hFollow⟩ | ⟨hOther, _⟩
    · have hSame :=
        hMoves.frame_of_heeds hHeeds hBoth
          (hFollow.trans hPlain.follow.symm)
      have hOther : other.Plain :=
        { stage := hBoth.stage.symm.trans hNext.stage
          follow := hFollow
          fault := hBoth.source.fault.symm.trans hNext.fault }
      have hStay :
          other.checksums = .ofFlags other.header.flags := by
        cases hSame with
        | frame _ _ _ hSame _ _ =>
          rw [hSame]
          exact hChecksums
      rcases ih hClean ⟨hNext.stage, hNext.follow, hNext.fault⟩
        other
        { hBoth with
          staging := congrArg Staging.clear hBoth.staging }
        hOther hStay with
        ⟨contents, members, tail, last, hSplits, hBlocks⟩
      rcases hSplits.frame hFrame hSame hChecksums with
        ⟨content, hBlock, hAll⟩
      refine
        ⟨content :: contents, members, tail, last, hAll, ?_⟩
      rw [List.map_cons, hBlocks]
      simp only [List.flatMap_cons, Member.blocks, List.map_cons,
        List.cons_append]
      rw [← hBlock]
      exact
        congrArg (· :: _)
          (congrArg (fun staging => staging.ready) hBoth.staging)
    · exact absurd rfl hOther

------------------------------------------------------------
-- Agreement
------------------------------------------------------------

/- A reader follows no members unless it is told to. -/
theorem follow_of_start
    {codec : Codec}
    {source next : Source}
    {reader : ContainerReader}
    (hStart : (start codec).perform source = (.ok reader, next)) :
    reader.followMembers = false := by
  rcases ok_of_perform_bind hStart with
    ⟨fields, opened, _, hResume⟩
  rw [perform_bind_of_ok (perform_get opened),
    perform_ofExcept] at hResume
  rcases Prod.mk.inj hResume with ⟨hReader, rfl⟩
  rcases ok_of_bind hReader with ⟨_, _, hResumed⟩
  cases hResumed
  rfl

/-
  The bytes of a source are members and a tail. Draining and
  resetting a reader goes from one member to the next, and
  comes to what the same reader finds if it follows members.
  Where too little is left for a header, one more call fails.
-/
structure AgreesByResets
    (reader : ContainerReader)
    (source : Source)
    (members : List Member)
    (tail : Bytes) : Prop where
  some : members ≠ []
  fits : ∀ member ∈ members, member.Fits reader.codec
  rest : source.rest = Member.layout members ++ tail
  stop : tail.take 9 ≠ Container.magic
  drained :
    Drained source.position 0 members
      (relay members.length reader).1
  data :
    (drain (reader.follow true)).bytes.toBytes =
      ((relay members.length reader).1.map fun found =>
        found.bytes.toBytes).flatten
  frames :
    (drain (reader.follow true)).reader.frames =
      (relay members.length reader).2.frames
  short :
    tail.length < 9 →
      (readFrame.perform (relay members.length reader).2).1 =
        .error (.truncated .magic)

/- What a new reader splits off is what it finds by itself. -/
theorem Splits.agrees
    {reader last ended : ContainerReader}
    {source : Source}
    {contents : List PackedBlock}
    {members : List Member}
    {tail : Bytes}
    (h : reader.Splits contents members tail last)
    (hRegular : reader.header.Regular)
    (hMethod : reader.header.method = reader.codec.method)
    (hFrames : reader.frames = 0)
    (hRest :
      source.rest = reader.header.encode ++ reader.source.rest)
    (hPosition :
      reader.source.position =
        source.position + reader.header.encode.length)
    (hEmpties :
      Empties (reader.follow true)
        ((Member.mk reader.header contents :: members).flatMap
          Member.blocks)
        none ended) :
    reader.AgreesByResets source
      (⟨reader.header, contents⟩ :: members) tail := by
  have hRelays :=
    Relays.cons h.empties (h.closes hPosition) h.relays
  have hDrained := hRelays.drained
  rw [hFrames] at hDrained
  have hCount := frames_of_empties hEmpties
  rcases orderly.drain_of_empties hEmpties with
    ⟨bytes, hDrain, hBytes⟩
  exact
    { some := List.cons_ne_nil _ _
      fits := by
        intro member hMember
        rcases List.mem_cons.mp hMember with rfl | hMember
        · exact
            { regular := hRegular
              method := hMethod
              contents := h.contents_fit }
        · exact h.members_fit member hMember
      rest := by
        rw [hRest, h.rest]
        simp only [Member.layout, List.flatMap_cons, Member.encode,
          List.append_assoc]
      stop := h.stop
      drained := hDrained
      data := by rw [hDrain, hBytes, hRelays.data]
      frames := by
        rw [hDrain, hRelays.frames]
        exact hCount
      short := by
        intro hShort
        apply readFrame_of_no_header hRelays.due hRelays.fault
        rw [hRelays.rest]
        exact hShort }

/-
  Whatever a reader that follows members reads to a clean end,
  a reader that is reset behind every member reads as well,
  member by member. The codec may be any.
-/
theorem resets_agree_with_following
    {codec : Codec}
    {source next : Source}
    {reader : ContainerReader}
    (hFault : source.fault = none)
    (hStart : (start codec).perform source = (.ok reader, next))
    (hClean : (drain (reader.follow true)).failure = none) :
    ∃ members tail, reader.AgreesByResets source members tail := by
  rcases header_of_start hFault hStart with
    ⟨fields, hRegular, hMethod, hRest, hAhead, hReader⟩
  obtain rfl :
      reader = (standing next fields codec).follow false := by
    rw [← hReader, ← follow_of_start hStart]
    rfl
  have hReady :=
    ready_standing fields codec (hAhead.fault.trans hFault)
  rcases exists_walk _ (standing next fields codec) hReady
    (Nat.lt_succ_self _) with ⟨found, failure, hWalks, hDelivers⟩
  rcases hDelivers.exists_empties with ⟨last, hEmpties⟩
  rcases orderly.drain_of_empties hEmpties with
    ⟨bytes, hDrain, _⟩
  obtain rfl : failure = none := by
    rw [hReader, hDrain] at hClean
    exact hClean
  rcases splits_of_walk hWalks rfl hReady
    ((standing next fields codec).follow false)
    ⟨⟨rfl, rfl, rfl⟩, rfl, rfl, rfl, rfl, rfl, rfl, rfl⟩
    ⟨rfl, rfl, hReady.fault⟩ rfl with
    ⟨contents, members, tail, _, hSplits, hBlocks⟩
  rw [hBlocks] at hEmpties
  exact
    ⟨⟨fields, contents⟩ :: members, tail,
      hSplits.agrees hRegular hMethod rfl hRest hAhead.position
        hEmpties⟩

/- Two members with other checksums, the last one empty. -/
theorem resets_agree_with_following_of_pair :
    ∃ reader next,
      (Source.ofBytes (Segment.layout pairSegments)).fault = none ∧
      (start .runLength).perform
          (.ofBytes (Segment.layout pairSegments)) =
        (.ok reader, next) ∧
      (drain (reader.follow true)).failure = none ∧
      ∃ members tail,
        reader.AgreesByResets
          (.ofBytes (Segment.layout pairSegments)) members
          tail := by
  have hRest :
      (Source.ofBytes (Segment.layout pairSegments)).rest =
        Segment.layout pairSegments ++ [] := by
    rw [List.append_nil]
    exact List.drop_zero
  rcases delivers_of_complete complete_pairSegments
    readable_pairSegments Header.take_nil_ne_magic rfl hRest with
    ⟨reader, next, hStart, _, hDelivers⟩
  rcases hDelivers.exists_empties with ⟨last, hEmpties⟩
  rcases orderly.drain_of_empties hEmpties with
    ⟨bytes, hDrain, _⟩
  have hClean : (drain (reader.follow true)).failure = none := by
    rw [hDrain]
  exact
    ⟨reader, next, rfl, hStart, hClean,
      resets_agree_with_following rfl hStart hClean⟩

end ContainerReader

end SplitStream
