import SplitStream.Proofs.Storage.Likeness
import SplitStream.Proofs.Writer.Delivery

/-
  Streams as the channels of writers. Where nothing fails,
  the streams of a container and of its index receive what is
  written to them. Where something may fail, they come to the
  same as long as nothing has failed, and change no names.

  Main declarations:
    * `OutputStream.accepts_channel`
    * `OutputStream.receivers`
    * `OutputStream.settled_of_flushes`
    * `OutputStream.Calmer`
    * `OutputStream.inStep_channel`
-/

------------------------------------------------------------
-- Receivers
------------------------------------------------------------

namespace SplitStream

namespace OutputStream

variable
  {stream : OutputStream} {file : Nat} {fs fs' : FileSystem}
  {bytes : Bytes}

/- A channel accepts what keeps to its stream and its file. -/
theorem accepts_channel
    {Holds : FileSystem → Bytes → Prop}
    (hHolds :
      ∀ fs held,
        Holds fs held →
          fs.Calm ∧ stream.Holds file held fs)
    (hKeeps :
      ∀ fs fs' held more,
        Holds fs held →
        stream.Touches file fs fs' →
        stream.Holds file more fs' →
          Holds fs' more) :
    stream.channel.Accepts Holds := by
  constructor
  · intro fs held bs hHeld hSome
    rcases hHolds fs held hHeld with ⟨hCalm, hStream⟩
    rcases channel_write_of_calm hCalm hStream bs with
      ⟨fs', hWrite, hAfter, hTouches⟩
    rcases List.exists_cons_of_ne_nil hSome with ⟨b, rest, rfl⟩
    have hAll : (b :: rest).take (rest.length + 1) = b :: rest :=
      List.take_of_length_le (Nat.le_refl _)
    refine ⟨rest.length, fs', hWrite, Nat.lt_succ_self _, ?_⟩
    rw [hAll]
    exact hKeeps fs fs' held _ hHeld hTouches hAfter
  · intro fs held hHeld
    rcases hHolds fs held hHeld with ⟨hCalm, hStream⟩
    rcases channel_flush_of_calm hCalm hStream with
      ⟨fs', hFlush, hAfter, hTouches⟩
    rw [hFlush]
    exact hKeeps fs fs' held held hHeld hTouches hAfter.holds

/-
  In some trees nothing fails, and a tree stays one of them
  when a stream touches its file.
-/
structure Keeps
    (stream : OutputStream)
    (file : Nat)
    (Trees : FileSystem → Prop) : Prop where
  calm : ∀ fs, Trees fs → fs.Calm
  touches :
    ∀ fs fs',
      Trees fs → stream.Touches file fs fs' → Trees fs'

theorem keeps_calm
    (stream : OutputStream)
    (file : Nat) :
    stream.Keeps file FileSystem.Calm where
  calm := fun _ hCalm => hCalm
  touches := fun _ _ hCalm hTouches => hTouches.calm hCalm

/-
  A stream of its own for a container and for its index, in
  trees where nothing fails.
-/
def receiversIn
    (Trees : FileSystem → Prop)
    {data index : OutputStream}
    {dataFile indexFile : Nat}
    (hStreams : data.number ≠ index.number)
    (hFiles : dataFile ≠ indexFile)
    (hData : data.Keeps dataFile Trees)
    (hIndex : index.Keeps indexFile Trees) :
    Receivers FileSystem where
  data := data.channel
  index := index.channel
  Holds := fun fs received indexed =>
    Trees fs ∧
      data.Holds dataFile received fs ∧
      index.Holds indexFile indexed fs
  data_accepts := by
    intro indexed
    apply accepts_channel
    · intro fs held hHeld
      exact ⟨hData.calm fs hHeld.1, hHeld.2.1⟩
    · intro fs fs' held more hHeld hTouches hMore
      exact
        ⟨hData.touches fs fs' hHeld.1 hTouches, hMore,
          hTouches.holds hStreams.symm hFiles.symm hHeld.2.2⟩
  index_accepts := by
    intro received
    apply accepts_channel
    · intro fs held hHeld
      exact ⟨hIndex.calm fs hHeld.1, hHeld.2.2⟩
    · intro fs fs' held more hHeld hTouches hMore
      exact
        ⟨hIndex.touches fs fs' hHeld.1 hTouches,
          hTouches.holds hStreams hFiles hHeld.2.1, hMore⟩
  index_settles := by
    intro received fs held hHeld
    rcases channel_flush_of_calm (hIndex.calm fs hHeld.1)
      hHeld.2.2 with ⟨fs', hFlush, _⟩
    rw [hFlush]

/- The streams of a container and of its index, in any tree. -/
def receivers
    {data index : OutputStream}
    {dataFile indexFile : Nat}
    (hStreams : data.number ≠ index.number)
    (hFiles : dataFile ≠ indexFile) :
    Receivers FileSystem :=
  receiversIn FileSystem.Calm hStreams hFiles
    (keeps_calm data dataFile) (keeps_calm index indexFile)

/- A stream of its own for a container without an index. -/
def receiverIn
    (Trees : FileSystem → Prop)
    {data : OutputStream}
    {file : Nat}
    (hData : data.Keeps file Trees) : Receivers FileSystem where
  data := data.channel
  index :=
    { write := fun bs fs => (.ok bs.length, fs)
      flush := fun fs => (.ok (), fs) }
  Holds := fun fs received _ =>
    Trees fs ∧ data.Holds file received fs
  data_accepts := by
    intro _
    apply accepts_channel
    · intro fs held hHeld
      exact ⟨hData.calm fs hHeld.1, hHeld.2⟩
    · intro fs fs' held more hHeld hTouches hMore
      exact ⟨hData.touches fs fs' hHeld.1 hTouches, hMore⟩
  index_accepts := by
    intro received
    constructor
    · intro fs held bs hHeld hSome
      rcases List.exists_cons_of_ne_nil hSome with ⟨b, rest, rfl⟩
      exact ⟨rest.length, fs, rfl, Nat.lt_succ_self _, hHeld⟩
    · intro fs held hHeld
      exact hHeld
  index_settles := by
    intro received fs held hHeld
    rfl

/- The stream of a container, in any tree. -/
def receiver
    (data : OutputStream)
    (file : Nat) : Receivers FileSystem :=
  receiverIn FileSystem.Calm (keeps_calm data file)

/- No flush of these streams fails. -/
theorem settled_receiversIn
    {Trees : FileSystem → Prop}
    {data index : OutputStream}
    {dataFile indexFile : Nat}
    (hStreams : data.number ≠ index.number)
    (hFiles : dataFile ≠ indexFile)
    (hData : data.Keeps dataFile Trees)
    (hIndex : index.Keeps indexFile Trees) :
    (receiversIn Trees hStreams hFiles hData hIndex).Settled := by
  rintro _ fs held ⟨hTrees, hHeld, _⟩
  rcases channel_flush_of_calm (hData.calm fs hTrees) hHeld with
    ⟨fs', hFlush, _⟩
  exact congrArg Prod.fst hFlush

theorem settled_receiverIn
    {Trees : FileSystem → Prop}
    {data : OutputStream}
    {file : Nat}
    (hData : data.Keeps file Trees) :
    (receiverIn Trees hData).Settled := by
  rintro _ fs held ⟨hTrees, hHeld⟩
  rcases channel_flush_of_calm (hData.calm fs hTrees) hHeld with
    ⟨fs', hFlush, _⟩
  exact congrArg Prod.fst hFlush

/- Streams that are flushed one after the other are settled. -/
theorem settled_of_flushes
    {first second : OutputStream}
    {firstFile secondFile : Nat}
    {more : Bytes}
    (hStreams : first.number ≠ second.number)
    (hFiles : firstFile ≠ secondFile)
    (hCalm : fs.Calm)
    (hFirst : first.Holds firstFile bytes fs)
    (hSecond : second.Holds secondFile more fs)
    (hEnd :
      fs' =
        (second.channel.flush (first.channel.flush fs).2).2) :
    first.Settled firstFile bytes fs' ∧
      second.Settled secondFile more fs' := by
  rcases channel_flush_of_calm hCalm hFirst with
    ⟨middle, hFlush, hSettled, hTouches⟩
  have hMore :=
    hTouches.holds hStreams.symm hFiles.symm hSecond
  rcases channel_flush_of_calm (hTouches.calm hCalm) hMore with
    ⟨last, hFlush', hSettled', hTouches'⟩
  rw [hFlush, hFlush'] at hEnd
  rw [hEnd]
  exact ⟨hTouches'.settled hStreams hFiles hSettled, hSettled'⟩

------------------------------------------------------------
-- Failing Trees
------------------------------------------------------------

/-
  A tree with the names of another one, beside the same tree
  in which nothing fails for a reason outside.
-/
def Calmer
    (base fs calmer : FileSystem) : Prop :=
  base.SameNames fs ∧ calmer = fs.calm

variable {base : FileSystem}

theorem likeness_calmer
    (base : FileSystem) :
    FileSystem.Likeness (Calmer base) base.SameNames :=
  FileSystem.likeness_calmer
    (fun _ _ _ hSame => ⟨hSame.nodes, hSame.next⟩)
    (fun fs hSame =>
      hSame.trans (FileSystem.sameNames_counted fs))
    (fun fs _ hSame _ =>
      hSame.trans (FileSystem.sameNames_counted fs))

/-
  A stream in a tree that may fail writes what it writes in
  the calmer tree, as long as it does not fail.
-/
theorem inStep_channel
    (stream : OutputStream) :
    stream.channel.InStep (Calmer base) base.SameNames :=
  (likeness_calmer base).inStep_channel stream

/- To give up a stream does not fail. -/
theorem perform_discard
    (stream : OutputStream)
    (fs : FileSystem) :
    stream.discard.perform fs =
      (.ok (), stream.discard.final fs) :=
  rfl

/- A stream that is given up changes no names. -/
theorem sameNames_discard
    (stream : OutputStream)
    (fs : FileSystem) :
    fs.SameNames (stream.discard.final fs) := by
  rcases FileSystem.holds_final
    ((FileSystem.likeness_sameNames fs).flushBuffer stream)
    (.refl fs) with ⟨hNodes, hNext⟩
  exact ⟨hNodes, hNext⟩

/- A settled stream is given up without a trace. -/
theorem discard_of_settled
    (hSettled : stream.Settled file bytes fs) :
    stream.Touches file fs (stream.discard.final fs) ∧
      (stream.discard.final fs).bytesOf file = bytes := by
  have hFlush := flushBuffer_of_settled hSettled
  have hDiscard :
      stream.discard.final fs =
        { fs with streams := fs.streams.erase stream.number } := by
    unfold Step.final discard
    rw [Step.perform_bind_of_ok (Step.perform_modify _ fs)]
    unfold Step.final
    rw [hFlush]
    rfl
  rw [hDiscard]
  refine ⟨?_, hSettled.bytes⟩
  exact
    { nodes := rfl
      next := rfl
      faults := rfl
      bytes := fun _ _ => rfl
      streams := fun _ hOther => Table.get?_erase _ hOther }

end OutputStream

end SplitStream
