import SplitStream.Bytes.Basic

/-
  This file defines tapes: byte strings that grow at their
  end.  A tape keeps its bytes last first beside their
  number, so that appending costs no more than the appended
  bytes and the length is known at once.

  Key definitions include:
    * `Tape`
    * `Tape.empty`
    * `Tape.append`
    * `Tape.toBytes`

  Every operation is described by its effect on
  `Tape.toBytes`.
-/

------------------------------------------------------------
-- Tapes
------------------------------------------------------------

namespace SplitStream

/- A byte string that grows at its end. -/
structure Tape where
  lastFirst : Bytes
  size : Nat
  size_eq : size = lastFirst.length

namespace Tape

/- The tape without bytes. -/
def empty : Tape where
  lastFirst := []
  size := 0
  size_eq := rfl

instance : Inhabited Tape :=
  ⟨empty⟩

/- Append bytes at the end. -/
def append
    (tape : Tape)
    (bs : Bytes) : Tape where
  lastFirst := bs.reverseAux tape.lastFirst
  size := tape.size + bs.length
  size_eq := by
    rw [tape.size_eq, List.reverseAux_eq, List.length_append,
      List.length_reverse, Nat.add_comm]

/- The bytes of a tape, first to last. -/
def toBytes
    (tape : Tape) : Bytes :=
  tape.lastFirst.reverse

/- The tape that holds the given bytes. -/
def ofBytes
    (bs : Bytes) : Tape :=
  empty.append bs

------------------------------------------------------------
-- View
------------------------------------------------------------

@[simp]
theorem toBytes_empty : empty.toBytes = [] :=
  rfl

@[simp]
theorem toBytes_append
    (tape : Tape)
    (bs : Bytes) :
    (tape.append bs).toBytes = tape.toBytes ++ bs := by
  simp [append, toBytes, List.reverseAux_eq]

@[simp]
theorem toBytes_ofBytes
    (bs : Bytes) :
    (ofBytes bs).toBytes = bs := by
  simp [ofBytes]

theorem size_eq_length
    (tape : Tape) :
    tape.size = tape.toBytes.length := by
  simp [toBytes, tape.size_eq]

theorem toBytes_eq_nil
    {tape : Tape}
    (h : tape.size = 0) :
    tape.toBytes = [] :=
  List.length_eq_zero_iff.mp (tape.size_eq_length ▸ h)

@[simp]
theorem size_append
    (tape : Tape)
    (bs : Bytes) :
    (tape.append bs).size = tape.size + bs.length :=
  rfl

end Tape

end SplitStream
