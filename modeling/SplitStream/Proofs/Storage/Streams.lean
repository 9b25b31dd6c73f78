import SplitStream.Proofs.Command.Endings
import SplitStream.Proofs.Storage.Trees

/-
  Streams to files. A stream holds the bytes that its file
  has and those in its buffer; a flush settles it, so that
  the file has all of them. Streams to different files do not
  disturb each other, and no stream changes a name. What
  fails has changed nothing, so that a stream holds what it
  held before.

  Main declarations:
    * `OutputStream.Created`
    * `OutputStream.create_cases`
    * `OutputStream.Holds`
    * `OutputStream.Settled`
    * `OutputStream.Touches`
    * `OutputStream.ends_flushBuffer`
    * `OutputStream.ends_write`
    * `OutputStream.flushBuffer_of_calm`
    * `OutputStream.write_of_calm`
-/

------------------------------------------------------------
-- Bytes
------------------------------------------------------------

namespace SplitStream

namespace FileSystem

variable {fs : FileSystem} {number other : Nat}

/- The tree in which a file has other bytes. -/
def stored
    (fs : FileSystem)
    (number : Nat)
    (tape : Tape) : FileSystem :=
  { fs with files := fs.files.set number tape }

theorem bytesOf_stored_self
    (fs : FileSystem)
    (number : Nat)
    (tape : Tape) :
    (fs.stored number tape).bytesOf number = tape.toBytes := by
  simp [stored, bytesOf]

theorem bytesOf_stored
    (hOther : other ≠ number)
    (tape : Tape) :
    (fs.stored number tape).bytesOf other = fs.bytesOf other := by
  simp [stored, bytesOf, Table.get?_set _ hOther]

/- The bytes of a file, as they are stored. -/
theorem toBytes_getD
    (fs : FileSystem)
    (number : Nat) :
    ((fs.files.get? number).getD .empty).toBytes =
      fs.bytesOf number := by
  unfold bytesOf
  cases fs.files.get? number with
  | none => rfl
  | some tape => rfl

/- The tree in which nothing fails for reasons outside. -/
def calm
    (fs : FileSystem) : FileSystem :=
  { fs with faults := fun _ => none }

/- Nothing fails for a reason outside any more. -/
def Calm
    (fs : FileSystem) : Prop :=
  ∀ step, fs.faults step = none

theorem calm_calm
    (fs : FileSystem) :
    fs.calm.Calm := by
  intro _
  rfl

theorem Calm.perform_attempt
    (hCalm : fs.Calm) :
    attempt.perform fs = (.ok (), fs.counted) := by
  rw [FileSystem.perform_attempt, hCalm]

/- Then nothing but its name can keep a file from being used. -/
theorem Calm.not_hinders
    (hCalm : fs.Calm)
    {text : String}
    (hAdmits : fs.Admits text) :
    ¬ fs.Hinders text :=
  not_or.mpr
    ⟨not_not_intro (hCalm fs.step), not_not_intro hAdmits⟩

/- A fault is a reason outside the tree. -/
theorem not_calm_of_fault
    {kind : IoKind}
    (hFault : fs.faults fs.step = some kind) :
    ¬ fs.Calm := by
  intro hCalm
  rw [hCalm] at hFault
  contradiction

/-
  Bytes that are written at the end of a file follow its own,
  or nothing is written.
-/
theorem ends_writeAt_end
    (fs : FileSystem)
    (number : Nat)
    (bs : Bytes) :
    (writeAt number (fs.bytesOf number).length bs).Ends fs
      (fun _ fs' =>
        ∃ tape,
          fs' = fs.counted.stored number tape ∧
          tape.toBytes = fs.bytesOf number ++ bs)
      (fun _ fs' => ¬ fs.Calm ∧ fs' = fs.counted) := by
  let old := (fs.files.get? number).getD .empty
  have hOld : old.toBytes = fs.bytesOf number := toBytes_getD fs number
  have hSplice :
      splice old (fs.bytesOf number).length bs = old.append bs := by
    unfold splice
    rw [Tape.size_eq_length, hOld, if_pos rfl]
  unfold writeAt
  rcases attempt_bind_cases fs _ with
    ⟨kind, hFault, hPerform⟩ | hPerform
  · exact
      Step.ends_of_error hPerform ⟨not_calm_of_fault hFault, rfl⟩
  · rw [Step.perform_bind_of_ok (Step.perform_get _)] at hPerform
    apply Step.ends_of_ok hPerform
    refine ⟨old.append bs, ?_, by rw [Tape.toBytes_append, hOld]⟩
    rw [← hSplice]
    rfl

theorem Calm.writeAt_end
    (hCalm : fs.Calm)
    (number : Nat)
    (bs : Bytes) :
    ∃ tape,
      (writeAt number (fs.bytesOf number).length bs).perform fs =
        (.ok (), fs.counted.stored number tape) ∧
      tape.toBytes = fs.bytesOf number ++ bs := by
  have hWrite :=
    (fs.ends_writeAt_end number bs).succeeds fun _ _ hFails =>
      hFails.1 hCalm
  rcases hWrite.exists_ok with ⟨_, _, hPerform, tape, rfl, hTape⟩
  exact ⟨tape, hPerform, hTape⟩

end FileSystem

------------------------------------------------------------
-- Opening
------------------------------------------------------------

namespace OutputStream

variable
  {stream : OutputStream} {file : Nat} {fs fs' : FileSystem}
  {names : List String} {bytes : Bytes}

/-
  A stream has been opened to an empty file of some name, and
  nothing else has changed in a sound tree.
-/
structure Created
    (stream : OutputStream)
    (file : Nat)
    (names : List String)
    (fs fs' : FileSystem) : Prop where
  changes : FileSystem.ChangesAt names fs fs'
  origin : fs.node? names = some (.file file) ∨ fs.next ≤ file
  entry : fs'.node? names = some (.file file)
  empty : fs'.bytesOf file = []
  bytes :
    ∀ other, other ≠ file → fs'.bytesOf other = fs.bytesOf other
  state :
    fs'.streams.get? stream.number = some ⟨file, 0, .empty⟩
  streams :
    ∀ other, other ≠ stream.number →
      fs'.streams.get? other = fs.streams.get? other
  unused : fs.next ≤ stream.number
  used : stream.number < fs'.next
  faults : fs'.faults = fs.faults
  sound : fs'.Sound

/- The tree with one more stream, to a file. -/
def opened
    (fs : FileSystem)
    (file : Nat) : FileSystem :=
  { fs with
    next := fs.next + 1
    streams := fs.streams.set fs.next ⟨file, 0, .empty⟩ }

/- What opens a stream to a file that has just been emptied. -/
theorem created_opened
    {middle : FileSystem}
    (hChanges : FileSystem.ChangesAt names fs middle)
    (hOrigin :
      fs.node? names = some (.file file) ∨ fs.next ≤ file)
    (hEntry : middle.node? names = some (.file file))
    (hEmpty : middle.bytesOf file = [])
    (hBytes :
      ∀ other, other ≠ file →
        middle.bytesOf other = fs.bytesOf other)
    (hStreams : middle.streams = fs.streams)
    (hNext : fs.next ≤ middle.next)
    (hFaults : middle.faults = fs.faults)
    (hSound : middle.Sound) :
    Created ⟨middle.next⟩ file names fs (opened middle file) := by
  have hNodes :
      ∀ other,
        (opened middle file).node? other = middle.node? other := by
    intro other
    cases other <;> rfl
  exact
    { changes :=
        { before := hChanges.before
          after := by
            rw [hNodes]
            exact hChanges.after
          others := by
            intro other hOther
            rw [hNodes]
            exact hChanges.others other hOther }
      origin := hOrigin
      entry := (hNodes names).trans hEntry
      empty := hEmpty
      bytes := hBytes
      state := Table.get?_set_self _ _ _
      streams := by
        intro other hOther
        rw [← hStreams]
        exact Table.get?_set _ hOther _
      unused := hNext
      used := Nat.lt_succ_self _
      faults := hFaults
      sound := hSound.congr hNodes (Nat.le_succ _) }

/- Opening a stream fails without a change, or it is opened. -/
theorem create_cases
    (hSound : fs.Sound)
    (text : String) :
    (∃ e,
      (create text).perform fs = (.error e, fs.counted) ∧
      fs.Hinders text) ∨
    ∃ stream file place fs',
      (create text).perform fs = (.ok stream, fs') ∧
      fs.place? text = some place ∧
      place.isDirectory = false ∧
      Created stream file place.names fs fs' := by
  rcases FileSystem.createFile_cases fs text with
    ⟨e, hCreate, hHinders⟩ |
      ⟨place, file, middle, hCreate, hPlace, hFile, hAfter⟩
  · left
    exact ⟨e, Step.perform_bind_of_error hCreate, hHinders⟩
  right
  refine
    ⟨⟨middle.next⟩, file, place, opened middle file,
      Step.perform_bind_of_ok hCreate, hPlace, hFile, ?_⟩
  rcases hAfter with ⟨hNode, rfl⟩ | ⟨hNode, rfl, rfl⟩
  · have hNodes :
        ∀ other,
          (fs.counted.emptied file).node? other =
            fs.node? other :=
      FileSystem.node?_counted fs
    apply created_opened
    · exact
        { before := by simp [hNode]
          after := by simp [hNodes, hNode]
          others := fun other _ => hNodes other }
    · exact .inl hNode
    · rw [hNodes, hNode]
    · exact FileSystem.bytesOf_stored_self _ _ _
    · intro other hOther
      exact FileSystem.bytesOf_stored hOther _
    · rfl
    · exact Nat.le_refl _
    · rfl
    · exact hSound.congr hNodes (Nat.le_refl _)
  · rcases FileSystem.place?_append hPlace hFile with
      ⟨parent, name, hNames, hParent, _⟩
    rw [hNames] at hNode ⊢
    have hEntry :
        (fs.counted.entered (parent ++ [name])).node?
            (parent ++ [name]) =
          some (.file fs.counted.next) :=
      FileSystem.node?_entered_self (by simp)
    rw [← FileSystem.node?_counted] at hParent hNode
    apply created_opened
    · exact
        { before := by
            rw [← FileSystem.node?_counted, hNode]
            simp
          after := by simp [hEntry]
          others := by
            intro other hOther
            rw [FileSystem.node?_entered hOther,
              FileSystem.node?_counted] }
    · exact .inr (Nat.le_refl _)
    · exact hEntry
    · exact FileSystem.bytesOf_stored_self fs _ _
    · intro other hOther
      exact FileSystem.bytesOf_stored hOther _
    · rfl
    · exact Nat.le_succ _
    · rfl
    · exact
        FileSystem.sound_entered
          (FileSystem.sound_counted hSound) hParent hNode

------------------------------------------------------------
-- Writing
------------------------------------------------------------

/-
  Bytes have been written to a stream: its file has the first
  of them, and its buffer the others.
-/
def Holds
    (stream : OutputStream)
    (file : Nat)
    (bytes : Bytes)
    (fs : FileSystem) : Prop :=
  ∃ buffer,
    fs.streams.get? stream.number =
        some ⟨file, (fs.bytesOf file).length, buffer⟩ ∧
      fs.bytesOf file ++ buffer.toBytes = bytes

/- The file of a stream has all bytes written to the stream. -/
structure Settled
    (stream : OutputStream)
    (file : Nat)
    (bytes : Bytes)
    (fs : FileSystem) : Prop where
  state :
    ∃ buffer,
      fs.streams.get? stream.number =
          some ⟨file, bytes.length, buffer⟩ ∧
        buffer.size = 0
  bytes : fs.bytesOf file = bytes

theorem Settled.holds
    (hSettled : stream.Settled file bytes fs) :
    stream.Holds file bytes fs := by
  rcases hSettled.state with ⟨buffer, hState, hEmpty⟩
  refine ⟨buffer, ?_, ?_⟩
  · rw [hSettled.bytes]
    exact hState
  · rw [hSettled.bytes, Tape.toBytes_eq_nil hEmpty,
      List.append_nil]

/- Only a stream and the bytes of its file may have changed. -/
structure Touches
    (stream : OutputStream)
    (file : Nat)
    (fs fs' : FileSystem) : Prop where
  nodes : fs'.nodes = fs.nodes
  next : fs'.next = fs.next
  faults : fs'.faults = fs.faults
  bytes :
    ∀ other, other ≠ file → fs'.bytesOf other = fs.bytesOf other
  streams :
    ∀ other, other ≠ stream.number →
      fs'.streams.get? other = fs.streams.get? other

theorem Touches.refl
    (stream : OutputStream)
    (file : Nat)
    (fs : FileSystem) :
    stream.Touches file fs fs where
  nodes := rfl
  next := rfl
  faults := rfl
  bytes := fun _ _ => rfl
  streams := fun _ _ => rfl

theorem Touches.trans
    {last : FileSystem}
    (hFirst : stream.Touches file fs fs')
    (hLast : stream.Touches file fs' last) :
    stream.Touches file fs last where
  nodes := hLast.nodes.trans hFirst.nodes
  next := hLast.next.trans hFirst.next
  faults := hLast.faults.trans hFirst.faults
  bytes := by
    intro other hOther
    rw [hLast.bytes other hOther, hFirst.bytes other hOther]
  streams := by
    intro other hOther
    rw [hLast.streams other hOther, hFirst.streams other hOther]

theorem Touches.sameNames
    (hTouches : stream.Touches file fs fs') :
    fs.SameNames fs' :=
  ⟨hTouches.nodes, hTouches.next⟩

theorem Touches.calm
    (hTouches : stream.Touches file fs fs')
    (hCalm : fs.Calm) :
    fs'.Calm := by
  intro step
  rw [hTouches.faults]
  exact hCalm step

variable {other : OutputStream} {otherFile : Nat}

theorem Touches.holds
    (hTouches : stream.Touches file fs fs')
    (hStream : other.number ≠ stream.number)
    (hFile : otherFile ≠ file)
    (hHolds : other.Holds otherFile bytes fs) :
    other.Holds otherFile bytes fs' := by
  rcases hHolds with ⟨buffer, hState, hBytes⟩
  refine ⟨buffer, ?_, ?_⟩
  · rw [hTouches.streams _ hStream, hTouches.bytes _ hFile]
    exact hState
  · rw [hTouches.bytes _ hFile]
    exact hBytes

theorem Touches.settled
    (hTouches : stream.Touches file fs fs')
    (hStream : other.number ≠ stream.number)
    (hFile : otherFile ≠ file)
    (hSettled : other.Settled otherFile bytes fs) :
    other.Settled otherFile bytes fs' where
  state := by
    rw [hTouches.streams _ hStream]
    exact hSettled.state
  bytes := by
    rw [hTouches.bytes _ hFile]
    exact hSettled.bytes

theorem perform_state
    {state : OpenStream}
    (hState : fs.streams.get? stream.number = some state) :
    stream.state.perform fs = (.ok state, fs) := by
  unfold OutputStream.state
  rw [Step.perform_bind_of_ok (Step.perform_get fs), hState]
  rfl

/- The tree in which a stream has another state. -/
def advanced
    (stream : OutputStream)
    (state : OpenStream)
    (fs : FileSystem) : FileSystem :=
  { fs with streams := fs.streams.set stream.number state }

theorem state_advanced
    (stream : OutputStream)
    (state : OpenStream)
    (fs : FileSystem) :
    (stream.advanced state fs).streams.get? stream.number =
      some state :=
  Table.get?_set_self _ _ _

theorem touches_advanced
    (stream : OutputStream)
    (file : Nat)
    (state : OpenStream)
    (fs : FileSystem) :
    stream.Touches file fs (stream.advanced state fs) where
  nodes := rfl
  next := rfl
  faults := rfl
  bytes := fun _ _ => rfl
  streams := fun _ hOther => Table.get?_set _ hOther _

theorem touches_stored
    (stream : OutputStream)
    (file : Nat)
    (tape : Tape)
    (fs : FileSystem) :
    stream.Touches file fs (fs.counted.stored file tape) where
  nodes := rfl
  next := rfl
  faults := rfl
  bytes := fun _ hOther => FileSystem.bytesOf_stored hOther _
  streams := fun _ _ => rfl

theorem touches_counted
    (stream : OutputStream)
    (file : Nat)
    (fs : FileSystem) :
    stream.Touches file fs fs.counted where
  nodes := rfl
  next := rfl
  faults := rfl
  bytes := fun _ _ => rfl
  streams := fun _ _ => rfl

/- Bytes go to the end of the file, or nothing is written. -/
theorem ends_writeThrough
    {buffer : Tape}
    (hState :
      fs.streams.get? stream.number =
        some ⟨file, (fs.bytesOf file).length, buffer⟩)
    (bs : Bytes) :
    (stream.writeThrough bs).Ends fs
      (fun _ fs' =>
        fs'.streams.get? stream.number =
          some ⟨file, (fs'.bytesOf file).length, buffer⟩ ∧
        fs'.bytesOf file = fs.bytesOf file ++ bs ∧
        stream.Touches file fs fs')
      (fun _ fs' => ¬ fs.Calm ∧ fs' = fs.counted) := by
  unfold writeThrough
  rw [Step.Ends, Step.perform_bind_of_ok (perform_state hState),
    ← Step.Ends]
  refine (fs.ends_writeAt_end file bs).bind ?_
  rintro _ written ⟨tape, rfl, hTape⟩
  have hBytes :
      (fs.counted.stored file tape).bytesOf file =
        fs.bytesOf file ++ bs := by
    rw [FileSystem.bytesOf_stored_self, hTape]
  apply Step.ends_of_ok (Step.perform_modify _ _)
  refine ⟨?_, hBytes, ?_⟩
  · change
      (stream.advanced _ (fs.counted.stored file tape)).streams.get?
          stream.number =
        _
    rw [state_advanced, ← List.length_append, ← hBytes]
    rfl
  · exact
      (touches_stored stream file _ fs).trans
        (touches_advanced stream file _ _)

/- A flush settles a stream, or nothing is written. -/
theorem ends_flushBuffer
    (hHolds : stream.Holds file bytes fs) :
    stream.flushBuffer.Ends fs
      (fun _ fs' =>
        stream.Settled file bytes fs' ∧
        stream.Touches file fs fs')
      (fun _ fs' => ¬ fs.Calm ∧ fs' = fs.counted) := by
  rcases hHolds with ⟨buffer, hState, hBytes⟩
  unfold flushBuffer
  rw [Step.Ends, Step.perform_bind_of_ok (perform_state hState),
    ← Step.Ends]
  by_cases hEmpty : buffer.size = 0
  · rw [Tape.toBytes_eq_nil hEmpty, List.append_nil] at hBytes
    rw [if_neg (not_not_intro hEmpty)]
    apply Step.ends_of_ok (Step.perform_pure _ _)
    refine ⟨⟨⟨buffer, ?_, hEmpty⟩, hBytes⟩, .refl _ _ _⟩
    rw [← hBytes]
    exact hState
  · rw [if_pos hEmpty]
    refine (ends_writeThrough hState buffer.toBytes).bind ?_
    rintro _ written ⟨hAfter, hAll, hTouches⟩
    rw [hBytes] at hAll
    rw [hAll] at hAfter
    rw [Step.Ends, Step.perform_bind_of_ok (perform_state hAfter),
      ← Step.Ends]
    apply Step.ends_of_ok (Step.perform_modify _ _)
    refine ⟨⟨⟨.empty, ?_, rfl⟩, hAll⟩, ?_⟩
    · exact state_advanced stream _ written
    · exact
        hTouches.trans (touches_advanced stream file _ written)

theorem flushBuffer_of_calm
    (hCalm : fs.Calm)
    (hHolds : stream.Holds file bytes fs) :
    ∃ fs',
      stream.flushBuffer.perform fs = (.ok (), fs') ∧
      stream.Settled file bytes fs' ∧
      stream.Touches file fs fs' := by
  have hFlush :=
    (ends_flushBuffer hHolds).succeeds fun _ _ hFails =>
      hFails.1 hCalm
  rcases hFlush.exists_ok with ⟨_, fs', hPerform, hAfter⟩
  exact ⟨fs', hPerform, hAfter⟩

/- A settled stream has nothing to hand over. -/
theorem flushBuffer_of_settled
    (hSettled : stream.Settled file bytes fs) :
    stream.flushBuffer.perform fs = (.ok (), fs) := by
  rcases hSettled.state with ⟨buffer, hState, hEmpty⟩
  unfold flushBuffer
  rw [Step.perform_bind_of_ok (perform_state hState),
    if_neg (not_not_intro hEmpty)]
  rfl

/- What a write does when it has made room. -/
def takeIn
    (stream : OutputStream)
    (bs : Bytes) : Action FileSystem Nat :=
  if capacity ≤ bs.length then
    stream.writeThrough bs >>= fun _ => pure bs.length
  else
    stream.state >>= fun state =>
      stream.setState
          { state with buffer := state.buffer.append bs } >>=
        fun _ => pure bs.length

/- A write makes room if it must, and takes the bytes. -/
theorem write_eq
    (stream : OutputStream)
    (bs : Bytes) :
    stream.write bs =
      stream.state >>= fun state =>
        if capacity - state.buffer.size < bs.length then
          stream.flushBuffer >>= fun _ => stream.takeIn bs
        else
          stream.takeIn bs :=
  rfl

/- Past the buffer, bytes go only if there are none in it. -/
theorem ends_takeIn
    {buffer : Tape}
    (hState :
      fs.streams.get? stream.number =
        some ⟨file, (fs.bytesOf file).length, buffer⟩)
    (hBytes : fs.bytesOf file ++ buffer.toBytes = bytes)
    (bs : Bytes)
    (hRoom : capacity ≤ bs.length → buffer.size = 0) :
    (stream.takeIn bs).Ends fs
      (fun n fs' =>
        n = bs.length ∧
        stream.Holds file (bytes ++ bs) fs' ∧
        stream.Touches file fs fs')
      (fun _ fs' => ¬ fs.Calm ∧ fs' = fs.counted) := by
  unfold takeIn
  by_cases hLong : capacity ≤ bs.length
  · have hEmpty := Tape.toBytes_eq_nil (hRoom hLong)
    rw [hEmpty, List.append_nil] at hBytes
    rw [if_pos hLong]
    refine (ends_writeThrough hState bs).bind ?_
    rintro _ written ⟨hAfter, hAll, hTouches⟩
    apply Step.ends_of_ok (Step.perform_pure _ _)
    refine ⟨rfl, ⟨buffer, hAfter, ?_⟩, hTouches⟩
    rw [hAll, hEmpty, List.append_nil, hBytes]
  · let state : OpenStream :=
      ⟨file, (fs.bytesOf file).length, buffer.append bs⟩
    rw [if_neg hLong, Step.Ends,
      Step.perform_bind_of_ok (perform_state hState), ← Step.Ends]
    have hTake :
        (stream.setState state >>= fun _ =>
            (pure bs.length : Action FileSystem Nat)).perform fs =
          (.ok bs.length, stream.advanced state fs) :=
      rfl
    apply Step.ends_of_ok hTake
    refine
      ⟨rfl, ⟨buffer.append bs, state_advanced stream state fs, ?_⟩,
        touches_advanced stream file state fs⟩
    rw [Tape.toBytes_append, ← List.append_assoc, ← hBytes]
    rfl

/-
  A stream takes all bytes of a write, or it holds what it
  held. Only the stream and its file have changed.
-/
theorem ends_write
    (hHolds : stream.Holds file bytes fs)
    (bs : Bytes) :
    (stream.write bs).Ends fs
      (fun n fs' =>
        n = bs.length ∧
        stream.Holds file (bytes ++ bs) fs' ∧
        stream.Touches file fs fs')
      (fun _ fs' =>
        ¬ fs.Calm ∧
        stream.Holds file bytes fs' ∧
        stream.Touches file fs fs') := by
  have hFlush := ends_flushBuffer hHolds
  rcases hHolds with ⟨buffer, hState, hBytes⟩
  have hKept : stream.Holds file bytes fs.counted :=
    ⟨buffer, hState, hBytes⟩
  rw [write_eq, Step.Ends,
    Step.perform_bind_of_ok (perform_state hState), ← Step.Ends]
  dsimp only
  by_cases hFull : capacity - buffer.size < bs.length
  · rw [if_pos hFull]
    have hRefused :
        ∀ (e : Error) fs',
          ¬ fs.Calm ∧ fs' = fs.counted →
            ¬ fs.Calm ∧
            stream.Holds file bytes fs' ∧
            stream.Touches file fs fs' := by
      rintro _ _ ⟨hFault, rfl⟩
      exact ⟨hFault, hKept, touches_counted stream file fs⟩
    refine (hFlush.fails hRefused).bind ?_
    rintro _ flushed ⟨hSettled, hTouches⟩
    rcases hSettled.state with ⟨empty, hAfter, hEmpty⟩
    have hNone := Tape.toBytes_eq_nil hEmpty
    rw [← hSettled.bytes] at hAfter
    have hTake :=
      ends_takeIn hAfter
        (by rw [hNone, List.append_nil, hSettled.bytes]) bs
        fun _ => hEmpty
    apply hTake.mono
    · rintro _ taken ⟨hCount, hTaken, hMore⟩
      exact ⟨hCount, hTaken, hTouches.trans hMore⟩
    · rintro _ _ ⟨hFault, rfl⟩
      refine ⟨fun hCalm => hFault (hTouches.calm hCalm), ?_, ?_⟩
      · exact hSettled.holds
      · exact hTouches.trans (touches_counted stream file flushed)
  · rw [if_neg hFull]
    have hRoom : capacity ≤ bs.length → buffer.size = 0 := by
      intro hLong
      have hSize : 0 < capacity := by decide
      omega
    apply (ends_takeIn hState hBytes bs hRoom).fails
    rintro _ _ ⟨hFault, rfl⟩
    exact ⟨hFault, hKept, touches_counted stream file fs⟩

theorem write_of_calm
    (hCalm : fs.Calm)
    (hHolds : stream.Holds file bytes fs)
    (bs : Bytes) :
    ∃ fs',
      (stream.write bs).perform fs = (.ok bs.length, fs') ∧
      stream.Holds file (bytes ++ bs) fs' ∧
      stream.Touches file fs fs' := by
  have hWrite :=
    (ends_write hHolds bs).succeeds fun _ _ hFails =>
      hFails.1 hCalm
  rcases hWrite.exists_ok with ⟨_, fs', hPerform, rfl, hAfter⟩
  exact ⟨fs', hPerform, hAfter⟩

/- The channel of a stream takes what is written to it. -/
theorem channel_write_of_calm
    (hCalm : fs.Calm)
    (hHolds : stream.Holds file bytes fs)
    (bs : Bytes) :
    ∃ fs',
      stream.channel.write bs fs = (.ok bs.length, fs') ∧
      stream.Holds file (bytes ++ bs) fs' ∧
      stream.Touches file fs fs' := by
  rcases write_of_calm hCalm hHolds bs with
    ⟨fs', hWrite, hAfter, hTouches⟩
  refine ⟨fs', ?_, hAfter, hTouches⟩
  simp only [channel, hWrite, deviceResult]
  rfl

theorem channel_flush_of_calm
    (hCalm : fs.Calm)
    (hHolds : stream.Holds file bytes fs) :
    ∃ fs',
      stream.channel.flush fs = (.ok (), fs') ∧
      stream.Settled file bytes fs' ∧
      stream.Touches file fs fs' := by
  rcases flushBuffer_of_calm hCalm hHolds with
    ⟨fs', hFlush, hAfter, hTouches⟩
  refine ⟨fs', ?_, hAfter, hTouches⟩
  simp only [channel, hFlush, deviceResult]
  rfl

end OutputStream

end SplitStream
