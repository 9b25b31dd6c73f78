import SplitStream.Proofs.Writer.Delivery

/-
  A world of two sinks, one for a container and one for its
  index. Their conducts stay the same, and so does what is
  known of them.

  Main declarations:
    * `Conduct.Accepting`
    * `SinkPair`
    * `SinkPair.Hold`
    * `SinkPair.receivers`
-/

------------------------------------------------------------
-- Accepting Sinks
------------------------------------------------------------

namespace SplitStream

/- Every write takes a byte, and none fails. -/
def Conduct.Accepting
    (conduct : Conduct) : Prop :=
  ∀ turn size offered, 0 < offered →
    0 < (conduct.write turn size offered).taken ∧
      (conduct.write turn size offered).failure = none

theorem Conduct.reliable_willing :
    Conduct.willing.Reliable :=
  ⟨fun _ _ _ hSome => ⟨hSome, rfl⟩, fun _ => rfl⟩

/- Take everything, and fail to flush at one turn. -/
def Conduct.failingAt
    (turn : Nat) : Conduct where
  write := fun _ _ offered => ⟨offered, none⟩
  flush := fun now =>
    if now = turn then some .brokenPipe else none

theorem Conduct.accepting_failingAt
    (turn : Nat) :
    (failingAt turn).Accepting :=
  fun _ _ _ hSome => ⟨hSome, rfl⟩

/- The sink has received bytes, and answers as it always did. -/
structure Sink.Holds
    (conduct : Conduct)
    (sink : Sink)
    (received : Bytes) : Prop where
  contents : sink.contents = received
  conduct : sink.conduct = conduct

/- What an answer takes is behind what was received before. -/
theorem Sink.Holds.append
    {conduct : Conduct}
    {sink : Sink}
    {received : Bytes}
    (h : sink.Holds conduct received)
    (taken : Bytes) :
    Sink.Holds conduct
      { sink with
        received := sink.received.append taken
        turn := sink.turn + 1 }
      (received ++ taken) := by
  refine ⟨?_, h.conduct⟩
  rw [← h.contents]
  exact Tape.toBytes_append _ _

theorem Sink.Holds.write
    {conduct : Conduct}
    {sink : Sink}
    {received bs : Bytes}
    (h : sink.Holds conduct received)
    (hAccepting : conduct.Accepting)
    (hSome : bs ≠ []) :
    ∃ n next,
      Sink.write bs sink = (.ok (n + 1), next) ∧
      n < bs.length ∧
      next.Holds conduct (received ++ bs.take (n + 1)) := by
  have hPos : 0 < bs.length := List.length_pos_iff.mpr hSome
  rcases hAccepting sink.turn sink.received.size bs.length hPos
    with ⟨hTaken, hNone⟩
  rw [← h.conduct] at hTaken hNone
  rcases Nat.exists_eq_add_of_lt hTaken with ⟨extra, hExtra⟩
  rw [Nat.zero_add] at hExtra
  let taken := bs.take (extra + 1)
  have hLength : taken.length = min extra (bs.length - 1) + 1 := by
    rw [List.length_take]
    omega
  refine
    ⟨min extra (bs.length - 1),
      { sink with
        received := sink.received.append taken
        turn := sink.turn + 1 },
      ?_, by omega, ?_⟩
  · unfold Sink.write
    simp only [hNone, hExtra]
    rw [← hLength]
  · have hTake :
        bs.take (min extra (bs.length - 1) + 1) = taken := by
      rw [← hLength, List.length_take, ← List.take_take]
      simp [taken]
    rw [hTake]
    exact h.append taken

theorem Sink.Holds.flush
    {conduct : Conduct}
    {sink : Sink}
    {received : Bytes}
    (h : sink.Holds conduct received) :
    (Sink.flush sink).2.Holds conduct received := by
  unfold Sink.flush
  split
  · exact ⟨h.contents, h.conduct⟩
  · exact ⟨h.contents, h.conduct⟩

theorem Sink.Holds.flush_ok
    {conduct : Conduct}
    {sink : Sink}
    {received : Bytes}
    (h : sink.Holds conduct received)
    (hSettles : ∀ turn, conduct.flush turn = none) :
    (Sink.flush sink).1 = .ok () := by
  simp [Sink.flush, h.conduct, hSettles]

------------------------------------------------------------
-- Two Sinks
------------------------------------------------------------

/- A sink for a container and a sink for its index. -/
structure SinkPair where
  data : Sink
  index : Sink

namespace SinkPair

/- Two sinks that have received nothing. -/
def empty
    (data index : Conduct) : SinkPair where
  data := .empty data
  index := .empty index

/- The channel of the container. -/
def dataChannel : Channel SinkPair :=
  Sink.channel.through
    (fun sinks => sinks.data)
    (fun sink sinks => { sinks with data := sink })

/- The channel of the index. -/
def indexChannel : Channel SinkPair :=
  Sink.channel.through
    (fun sinks => sinks.index)
    (fun sink sinks => { sinks with index := sink })

/- Both sinks have received bytes. -/
structure Hold
    (data index : Conduct)
    (sinks : SinkPair)
    (received indexed : Bytes) : Prop where
  data : sinks.data.Holds data received
  index : sinks.index.Holds index indexed

/- What a container and its index are received by. -/
def receivers
    {data index : Conduct}
    (hData : data.Accepting)
    (hIndex : index.Reliable) : Receivers SinkPair where
  data := dataChannel
  index := indexChannel
  Holds := Hold data index
  data_accepts := fun indexed =>
    { write := by
        intro sinks received bs hHold hSome
        rcases hHold.data.write hData hSome with
          ⟨n, next, hWrite, hLess, hNext⟩
        refine
          ⟨n, { sinks with data := next }, ?_, hLess, hNext,
            hHold.index⟩
        simp [dataChannel, Channel.through, Sink.channel, hWrite]
      flush := by
        intro sinks received hHold
        exact ⟨hHold.data.flush, hHold.index⟩ }
  index_accepts := fun received =>
    { write := by
        intro sinks indexed bs hHold hSome
        rcases hHold.index.write hIndex.1 hSome with
          ⟨n, next, hWrite, hLess, hNext⟩
        refine
          ⟨n, { sinks with index := next }, ?_, hLess,
            hHold.data, hNext⟩
        simp [indexChannel, Channel.through, Sink.channel,
          hWrite]
      flush := by
        intro sinks indexed hHold
        exact ⟨hHold.data, hHold.index.flush⟩ }
  index_settles := by
    intro received sinks indexed hHold
    exact hHold.index.flush_ok hIndex.2

theorem settled_receivers
    {data index : Conduct}
    (hData : data.Reliable)
    (hIndex : index.Reliable) :
    (receivers hData.1 hIndex).Settled := by
  intro indexed sinks received hHold
  exact hHold.data.flush_ok hData.2

theorem hold_empty
    (data index : Conduct) :
    Hold data index (empty data index) [] [] :=
  ⟨⟨rfl, rfl⟩, ⟨rfl, rfl⟩⟩

end SinkPair

end SplitStream
