import SplitStream.Container.Header
import SplitStream.Proofs.Source.Onward

/-
  Properties that a reading has if its parts have them. A
  reading is put together from single readings, refusals and
  choices, and goes on from what it has found. What is shown
  of all of these is shown of every header and of every frame.

  Main declarations:
    * `Reading.Hereditary`
    * `Reading.Hereditary.unless`
    * `Reading.Hereditary.choose`
    * `Reading.hereditary_onward`
    * `Header.hereditary_readAfterMagic`
    * `Header.hereditary_read`
-/

------------------------------------------------------------
-- Hereditary Properties
------------------------------------------------------------

namespace SplitStream

namespace Reading

/-
  A property of readings that goes over from parts to wholes.
  Refusals are never for a reason of decoding.
-/
structure Hereditary
    (Holds : ∀ {α : Type}, Reading α → Prop) : Prop where
  of_pure : ∀ {α : Type} (a : α), Holds (pure a : Reading α)
  of_throw :
    ∀ {α : Type} (e : Error),
      e.isDecoding = false → Holds (throw e : Reading α)
  of_bind :
    ∀ {α β : Type} {reading : Reading α} {after : α → Reading β},
      Holds reading →
      (∀ a, Holds (after a)) →
        Holds (reading >>= after)
  of_exactly :
    ∀ (cut : Cut) (n : Nat), Holds (exactly (.truncated cut) n)
  of_recorded :
    ∀ {α : Type} {reading : Reading α},
      Holds reading → Holds reading.recorded

variable
  {Holds : ∀ {α : Type}, Reading α → Prop} {α β : Type}

theorem Hereditary.map
    (h : Hereditary Holds)
    {reading : Reading α}
    (f : α → β)
    (hReading : Holds reading) :
    Holds (f <$> reading) :=
  h.of_bind hReading fun a => h.of_pure (f a)

/- A refusal is passed, or it is all that happens. -/
theorem Hereditary.unless
    (h : Hereditary Holds)
    {condition : Prop}
    [Decidable condition]
    {e : Error}
    {after : Unit → Reading β}
    (hBlame : e.isDecoding = false)
    (hAfter : Holds (after ())) :
    Holds
      (have jump := after
       if condition then
        (throw e : Reading Unit) >>= jump
      else
        jump ()) := by
  by_cases hCondition : condition
  · simp only [hCondition, if_true]
    exact h.of_throw e hBlame
  · simp only [hCondition, if_false]
    exact hAfter

/- Two ways to the same continuation are one reading. -/
theorem Hereditary.choose
    (h : Hereditary Holds)
    {condition : Prop}
    [Decidable condition]
    {left right : Reading α}
    {after : α → Reading β}
    (hLeft : Holds left)
    (hRight : Holds right)
    (hAfter : ∀ a, Holds (after a)) :
    Holds
      (have jump := after
       if condition then left >>= jump else right >>= jump) := by
  by_cases hCondition : condition
  · simp only [hCondition, if_true]
    exact h.of_bind hLeft hAfter
  · simp only [hCondition, if_false]
    exact h.of_bind hRight hAfter

theorem Hereditary.number
    (h : Hereditary Holds)
    (cut : Cut)
    (width : Nat) :
    Holds (number (.truncated cut) width) :=
  h.map Bytes.ofBigEndian (h.of_exactly cut width)

theorem Hereditary.word
    (h : Hereditary Holds)
    (cut : Cut) :
    Holds (word (.truncated cut)) :=
  h.map UInt32.ofNat (h.number cut 4)

/- To go on, and not to fail in decoding, goes over to wholes. -/
theorem hereditary_onward :
    Hereditary fun {_} reading => reading.Onward where
  of_pure := onward_pure
  of_throw := fun _ hBlame => onward_throw hBlame
  of_bind := fun hReading hAfter => hReading.bind hAfter
  of_exactly := onward_exactly
  of_recorded := fun hReading => hReading.recorded

end Reading

------------------------------------------------------------
-- Headers
------------------------------------------------------------

namespace Header

open Reading

variable {Holds : ∀ {α : Type}, Reading α → Prop}

theorem hereditary_readHalf
    (h : Hereditary Holds) :
    Holds readHalf :=
  h.map UInt16.ofNat (h.number .header 2)

theorem hereditary_readByte
    (h : Hereditary Holds) :
    Holds readByte :=
  h.map UInt8.ofNat (h.number .header 1)

/- The fields follow each other; some versions have fewer. -/
theorem hereditary_readFields
    (h : Hereditary Holds) :
    Holds readFields := by
  have hHalf := hereditary_readHalf h
  have hByte := hereditary_readByte h
  have hWord := h.word .header
  unfold readFields
  apply h.of_bind hHalf
  intro version
  apply h.unless rfl
  apply h.of_bind hHalf
  intro libraryVersion
  apply h.choose hHalf (h.of_pure 0)
  intro versionNeeded
  apply h.unless rfl
  apply h.of_bind hByte
  intro method
  apply h.choose hByte (h.of_pure 0)
  intro level
  apply h.of_bind hWord
  intro flags
  apply h.unless rfl
  apply h.unless rfl
  apply h.choose (h.map some hWord) (h.of_pure none)
  intro filter
  apply h.of_bind hWord
  intro mode
  apply h.of_bind hWord
  intro time
  apply h.choose hWord (h.of_pure 0)
  intro gmtDiff
  apply h.of_bind (h.number .header 1)
  intro nameLength
  apply h.of_bind (h.of_exactly .header nameLength)
  intro name
  exact h.of_pure _

theorem hereditary_checkSum
    (h : Hereditary Holds)
    (kind : Checksum)
    (bs : Bytes) :
    Holds (checkSum kind bs) := by
  unfold checkSum
  apply h.of_bind (h.word .header)
  intro expected
  apply h.unless rfl
  exact h.of_pure _

theorem hereditary_readExtra
    (h : Hereditary Holds)
    (kind : Checksum) :
    Holds (readExtra kind) := by
  have hField : Holds readExtraField := by
    unfold readExtraField
    apply h.of_bind (h.number .header 4)
    intro length
    apply h.unless rfl
    exact h.of_exactly .header length
  unfold readExtra
  apply h.of_bind (h.of_recorded hField)
  intro found
  apply h.of_bind (hereditary_checkSum h kind found.2)
  intro passed
  exact h.of_pure _

theorem hereditary_readAfterMagic
    (h : Hereditary Holds) :
    Holds readAfterMagic := by
  unfold readAfterMagic
  apply h.of_bind (h.of_recorded (hereditary_readFields h))
  intro found
  apply h.of_bind
    (hereditary_checkSum h found.1.checksumKind found.2)
  intro passed
  apply h.choose
    (h.map some (hereditary_readExtra h found.1.checksumKind))
    (h.of_pure none)
  intro extra
  apply h.unless rfl
  exact h.of_pure _

theorem hereditary_read
    (h : Hereditary Holds) :
    Holds read := by
  unfold read
  apply h.of_bind (h.of_exactly .magic 9)
  intro found
  apply h.unless rfl
  exact hereditary_readAfterMagic h

theorem onward_readAfterMagic : readAfterMagic.Onward :=
  hereditary_readAfterMagic hereditary_onward

theorem onward_read : read.Onward :=
  hereditary_read hereditary_onward

end Header

end SplitStream
