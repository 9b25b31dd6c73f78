import SplitStream.Bytes.Tape
import SplitStream.Channel

/-
  This file defines sinks: byte strings that grow by what is
  written to them.  A sink answers each write in turn, and
  its conduct says how many bytes an answer takes and whether
  it fails.

  Key definitions include:
    * `Conduct`
    * `Conduct.Reliable`
    * `Sink`
    * `Sink.write`
    * `Sink.flush`
    * `Sink.channel`
-/

------------------------------------------------------------
-- Conduct
------------------------------------------------------------

namespace SplitStream

/- How many bytes an answer takes, and whether it fails. -/
structure Conduct.Answer where
  taken : Nat
  failure : Option IoKind

/-
  How a sink answers.  An answer to a write may depend on
  the number of answers given before, the number of bytes in
  the sink and the number of bytes offered; an answer to a
  flush on the number of answers.
-/
structure Conduct where
  write : Nat → Nat → Nat → Conduct.Answer
  flush : Nat → Option IoKind

namespace Conduct

/- Take everything and never fail. -/
def willing : Conduct where
  write := fun _ _ offered => ⟨offered, none⟩
  flush := fun _ => none

/- Every write takes a byte, and nothing fails. -/
def Reliable
    (conduct : Conduct) : Prop :=
  (∀ turn size offered, 0 < offered →
    0 < (conduct.write turn size offered).taken ∧
      (conduct.write turn size offered).failure = none) ∧
  ∀ turn, conduct.flush turn = none

end Conduct

------------------------------------------------------------
-- Sinks
------------------------------------------------------------

/- A byte string that grows by what is written to it. -/
structure Sink where
  received : Tape
  conduct : Conduct
  turn : Nat

namespace Sink

/- A sink that has received nothing. -/
def empty
    (conduct : Conduct) : Sink where
  received := .empty
  conduct := conduct
  turn := 0

/- The bytes received so far. -/
def contents
    (sink : Sink) : Bytes :=
  sink.received.toBytes

/- Take bytes as the conduct says. -/
def write
    (bs : Bytes)
    (sink : Sink) : Except IoKind Nat × Sink :=
  let answer :=
    sink.conduct.write sink.turn sink.received.size bs.length
  let taken := bs.take answer.taken
  let next : Sink :=
    { sink with
      received := sink.received.append taken
      turn := sink.turn + 1 }
  match answer.failure with
  | some kind => (.error kind, next)
  | none => (.ok taken.length, next)

/- Answer a flush as the conduct says. -/
def flush
    (sink : Sink) : Except IoKind Unit × Sink :=
  let next := { sink with turn := sink.turn + 1 }
  match sink.conduct.flush sink.turn with
  | some kind => (.error kind, next)
  | none => (.ok (), next)

/- The channel of a sink. -/
def channel : Channel Sink where
  write := write
  flush := flush

end Sink

end SplitStream
