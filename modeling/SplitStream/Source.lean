import SplitStream.Action

/-
  This file defines sources: byte strings with a position,
  read in pieces of any size.

  A source answers each request for bytes in turn.  Its
  schedule says how often an answer is interrupted before it
  comes and how many bytes it holds at most.  A source may
  also fail from a given position on.  Reading collects the
  pieces, asks again after interruptions, and so does not
  depend on the schedule.

  Key definitions include:
    * `Schedule`
    * `Source`
    * `Source.request`
    * `Source.gather`
    * `Source.seek`
    * `Reading`
    * `Reading.upTo`
    * `Reading.exactly`
    * `Reading.word`
-/

------------------------------------------------------------
-- Sources
------------------------------------------------------------

namespace SplitStream

/-
  How the answers of a source come: answer `k` is
  interrupted `interruptions k` times before it comes, and
  holds at most `surplus k + 1` bytes, or any number of them
  if there is no surplus given.
-/
structure Schedule where
  interruptions : Nat → Nat
  surplus : Nat → Option Nat

namespace Schedule

/- Every answer comes at once and whole. -/
def prompt : Schedule where
  interruptions := fun _ => 0
  surplus := fun _ => none

/- The number of bytes that answer `k` holds of `n` wanted ones. -/
def grant
    (schedule : Schedule)
    (k n : Nat) : Nat :=
  match schedule.surplus k with
  | none => n
  | some extra => min n (extra + 1)

theorem grant_pos
    (schedule : Schedule)
    (k : Nat)
    {n : Nat}
    (h : 0 < n) :
    0 < schedule.grant k n := by
  unfold grant
  split <;> omega

end Schedule

/-
  A byte string that is being read.  `rest` holds the bytes
  from the position on; `fault` is a position from which
  reading fails; `turn` counts the answers given, and
  `waiting` is the number of interruptions before the next.
-/
structure Source where
  content : Bytes
  size : Nat
  size_eq : size = content.length
  position : Nat
  rest : Bytes
  rest_eq : rest = content.drop position
  fault : Option (Nat × IoKind)
  schedule : Schedule
  turn : Nat
  waiting : Nat

namespace Source

/- A source at a position of a byte string. -/
def atPosition
    (content : Bytes)
    (position : Nat)
    (fault : Option (Nat × IoKind))
    (schedule : Schedule) : Source where
  content := content
  size := content.length
  size_eq := rfl
  position := position
  rest := content.drop position
  rest_eq := rfl
  fault := fault
  schedule := schedule
  turn := 0
  waiting := schedule.interruptions 0

/- A source of a byte string that answers promptly. -/
def ofBytes
    (content : Bytes) : Source :=
  atPosition content 0 none .prompt

/- The number of bytes from the position to the end. -/
def remaining
    (source : Source) : Nat :=
  source.size - source.position

theorem remaining_eq
    (source : Source) :
    source.remaining = source.rest.length := by
  rw [remaining, source.size_eq, source.rest_eq,
    List.length_drop]

/- Move over `n` bytes. -/
def advance
    (source : Source)
    (n : Nat) : Source :=
  { source with
    position := source.position + n
    rest := source.rest.drop n
    rest_eq := by rw [source.rest_eq, List.drop_drop] }

/- Move to a position, which may lie behind the end. -/
def seek
    (source : Source)
    (position : Nat) : Source :=
  if h : source.position ≤ position then
    { source with
      position := position
      rest := source.rest.drop (position - source.position)
      rest_eq := by
        rw [source.rest_eq, List.drop_drop]
        congr 1
        omega }
  else
    { source with
      position := position
      rest := source.content.drop position
      rest_eq := rfl }

------------------------------------------------------------
-- Answers
------------------------------------------------------------

/- The answers of a source to a request. -/
inductive Answer where
  | bytes (bs : Bytes)
  | interrupted
  | failed (kind : IoKind)

/- The number of bytes before the fault, if there is one. -/
def reach
    (source : Source)
    (n : Nat) : Nat :=
  match source.fault with
  | none => n
  | some (limit, _) => min n (limit - source.position)

/- The failure at the position, if reading fails there. -/
def failure?
    (source : Source) : Option IoKind :=
  match source.fault with
  | none => none
  | some (limit, kind) =>
      if limit ≤ source.position then some kind else none

/- Count one answer. -/
def nextTurn
    (source : Source) : Source :=
  { source with
    turn := source.turn + 1
    waiting := source.schedule.interruptions (source.turn + 1) }

/- Ask once for at most `n` bytes. -/
def request
    (source : Source)
    (n : Nat) : Answer × Source :=
  if 0 < source.waiting then
    (.interrupted, { source with waiting := source.waiting - 1 })
  else
    match source.failure? with
    | some kind => (.failed kind, source.nextTurn)
    | none =>
      let granted := source.schedule.grant source.turn n
      let piece := source.rest.take (source.reach granted)
      (.bytes piece, source.nextTurn.advance piece.length)

theorem waiting_of_interrupted
    {source next : Source}
    {n : Nat}
    (h : source.request n = (.interrupted, next)) :
    next.waiting < source.waiting := by
  unfold request at h
  split at h
  · have := congrArg (fun answer => answer.2.waiting) h
    simp only at this
    omega
  · split at h <;> simp at h

/-
  Ask for bytes until there are `want` of them, the source
  ends, or it fails.  `got` holds the bytes read before, the
  last one first.
-/
def gatherFrom
    (source : Source)
    (want : Nat)
    (got : Bytes) : Except IoKind Bytes × Source :=
  if want = 0 then
    (.ok got.reverse, source)
  else
    match _hRequest : source.request want with
    | (.interrupted, next) => gatherFrom next want got
    | (.failed kind, next) => (.error kind, next)
    | (.bytes [], next) => (.ok got.reverse, next)
    | (.bytes (b :: bs), next) =>
        gatherFrom next (want - (bs.length + 1))
          (bs.reverseAux (b :: got))
termination_by (want, source.waiting)
decreasing_by
  · exact Prod.Lex.right _ (waiting_of_interrupted _hRequest)
  · apply Prod.Lex.left
    omega

/- Read `want` bytes, or fewer at the end of the source. -/
def gather
    (source : Source)
    (want : Nat) : Except IoKind Bytes × Source :=
  source.gatherFrom want []

end Source

------------------------------------------------------------
-- Readings
------------------------------------------------------------

/- A step that reads from a source and may fail. -/
abbrev Reading
    (α : Type) : Type :=
  Action Source α

namespace Reading

/- Read `n` bytes, or fewer at the end of the source. -/
def upTo
    (n : Nat) : Reading Bytes :=
  .ofStep fun source =>
    let (result, next) := source.gather n
    (result.mapError .io, next)

/- Read `n` bytes; fail with `short` if the source ends before. -/
def exactly
    (short : Error)
    (n : Nat) : Reading Bytes :=
  .ofStep fun source =>
    match source.gather n with
    | (.error .unexpectedEnd, next) => (.error short, next)
    | (.error kind, next) => (.error (.io kind), next)
    | (.ok bs, next) =>
        if bs.length < n then
          (.error short, next)
        else
          (.ok bs, next)

/- Read a big-endian number of `width` bytes. -/
def number
    (short : Error)
    (width : Nat) : Reading Nat := do
  return Bytes.ofBigEndian (← exactly short width)

/- Read a word of four bytes. -/
def word
    (short : Error) : Reading UInt32 := do
  return UInt32.ofNat (← number short 4)

/- A reading, and the bytes that it moves over. -/
def recorded
    {α : Type}
    (reading : Reading α) : Reading (α × Bytes) := do
  let before ← get
  let a ← reading
  let after ← get
  return (a, before.rest.take (after.position - before.position))

/- The position of the source. -/
def position : Reading Nat :=
  return (← get).position

/- Move the source to a position. -/
def seek
    (position : Nat) : Reading Unit :=
  modify fun source => source.seek position

/- Read everything up to the end of the source. -/
def toEnd : Reading Bytes := do
  let source ← get
  upTo (source.remaining + 1)

end Reading

end SplitStream
