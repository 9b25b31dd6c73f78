import SplitStream.Error

/-
  This file defines channels, the places that bytes are
  written to.  A channel belongs to a world that holds what
  has been written; a write takes some of the bytes offered
  to it.

  Key definitions include:
    * `Channel`
    * `Channel.through`
    * `Channel.Delivery`
    * `Channel.deliver`
-/

------------------------------------------------------------
-- Channels
------------------------------------------------------------

namespace SplitStream

/-
  A place that bytes are written to.  A write answers with
  the number of bytes it took from the front of what it was
  offered.
-/
structure Channel
    (ω : Type) where
  write : Bytes → ω → Except IoKind Nat × ω
  flush : ω → Except IoKind Unit × ω

namespace Channel

variable {ω σ : Type}

/- A channel of one part of a world. -/
def through
    (get : ω → σ)
    (set : σ → ω → ω)
    (channel : Channel σ) : Channel ω where
  write := fun bs world =>
    let (result, part) := channel.write bs (get world)
    (result, set part world)
  flush := fun world =>
    let (result, part) := channel.flush (get world)
    (result, set part world)

------------------------------------------------------------
-- Delivery
------------------------------------------------------------

/-
  The outcome of delivering bytes: how many of them the
  channel took, also before a failure.
-/
structure Delivery
    (ω : Type) where
  result : Except IoKind Unit
  taken : Nat
  world : ω

/-
  Offer the bytes again and again until the channel has taken
  all of them.  A channel that takes none fails the delivery.
-/
def deliverFrom
    (channel : Channel ω)
    (taken : Nat)
    (bs : Bytes)
    (world : ω) : Delivery ω :=
  match bs with
  | [] => ⟨.ok (), taken, world⟩
  | b :: rest =>
    match channel.write (b :: rest) world with
    | (.error kind, next) => ⟨.error kind, taken, next⟩
    | (.ok 0, next) => ⟨.error .writeZero, taken, next⟩
    | (.ok (n + 1), next) =>
        deliverFrom channel (taken + (n + 1)) (rest.drop n) next
termination_by bs.length
decreasing_by
  simp only [List.length_cons, List.length_drop]
  omega

/- Deliver all bytes. -/
def deliver
    (channel : Channel ω)
    (bs : Bytes)
    (world : ω) : Delivery ω :=
  channel.deliverFrom 0 bs world

end Channel

end SplitStream
