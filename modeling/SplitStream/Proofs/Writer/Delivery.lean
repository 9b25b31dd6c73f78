import SplitStream.Proofs.Container.Segments
import SplitStream.Sink
import SplitStream.Writer.Outlet

/-
  Delivery to channels that take what is written to them. A
  channel is described by what its world holds: bytes that
  are delivered are appended to them, however many pieces
  they are taken in.

  Main declarations:
    * `Channel.Accepts`
    * `Channel.Accepts.deliver`
    * `Receivers`
    * `Outlet.perform_putAll_of_accepts`
-/

------------------------------------------------------------
-- Accepting Channels
------------------------------------------------------------

namespace SplitStream

namespace Channel

variable {ω : Type}

/-
  Writes append what they take to the bytes that the world
  holds, and they always take some. A flush may fail, but
  changes none of these bytes.
-/
structure Accepts
    (channel : Channel ω)
    (Holds : ω → Bytes → Prop) : Prop where
  write :
    ∀ (world : ω) (held bs : Bytes),
      Holds world held →
      bs ≠ [] →
        ∃ n next,
          channel.write bs world = (.ok (n + 1), next) ∧
          n < bs.length ∧
          Holds next (held ++ bs.take (n + 1))
  flush :
    ∀ (world : ω) (held : Bytes),
      Holds world held →
        Holds (channel.flush world).2 held

/- No flush fails. -/
def Settles
    (channel : Channel ω)
    (Holds : ω → Bytes → Prop) : Prop :=
  ∀ (world : ω) (held : Bytes),
    Holds world held →
      (channel.flush world).1 = .ok ()

variable {channel : Channel ω} {Holds : ω → Bytes → Prop}

theorem Accepts.deliverFrom
    (hAccepts : channel.Accepts Holds)
    (taken : Nat)
    (bs : Bytes)
    (world : ω)
    (held : Bytes)
    (hHolds : Holds world held) :
    ∃ next,
      channel.deliverFrom taken bs world =
        ⟨.ok (), taken + bs.length, next⟩ ∧
      Holds next (held ++ bs) := by
  fun_induction channel.deliverFrom taken bs world
    generalizing held with
  | case1 taken world =>
    exact ⟨world, rfl, by simpa using hHolds⟩
  | case2 taken world b rest kind next hWrite =>
    rcases hAccepts.write world held (b :: rest) hHolds (by simp)
      with ⟨n, _, hTaken, _, _⟩
    rw [hWrite] at hTaken
    cases (Prod.mk.inj hTaken).1
  | case3 taken world b rest next hWrite =>
    rcases hAccepts.write world held (b :: rest) hHolds (by simp)
      with ⟨n, _, hTaken, _, _⟩
    rw [hWrite] at hTaken
    cases (Prod.mk.inj hTaken).1
  | case4 taken world b rest n next hWrite ih =>
    rcases hAccepts.write world held (b :: rest) hHolds (by simp)
      with ⟨m, later, hTaken, hLess, hNext⟩
    rw [hWrite] at hTaken
    cases hTaken
    rcases ih _ hNext with ⟨final, hFinal, hHeld⟩
    refine ⟨final, ?_, ?_⟩
    · rw [hFinal, List.length_drop, List.length_cons]
      rw [List.length_cons] at hLess
      congr 1
      omega
    · rw [List.append_assoc] at hHeld
      simpa using hHeld

/- All bytes are delivered. -/
theorem Accepts.deliver
    (hAccepts : channel.Accepts Holds)
    (bs : Bytes)
    {world : ω}
    {held : Bytes}
    (hHolds : Holds world held) :
    ∃ next,
      channel.deliver bs world = ⟨.ok (), bs.length, next⟩ ∧
      Holds next (held ++ bs) := by
  rcases hAccepts.deliverFrom 0 bs world held hHolds with
    ⟨next, hNext, hHeld⟩
  rw [Nat.zero_add] at hNext
  exact ⟨next, hNext, hHeld⟩

end Channel

------------------------------------------------------------
-- Receivers
------------------------------------------------------------

/-
  The channels of a container and of its index. The world
  holds what each of them has received; flushes of the index
  do not fail.
-/
structure Receivers
    (ω : Type) where
  data : Channel ω
  index : Channel ω
  Holds : ω → Bytes → Bytes → Prop
  data_accepts :
    ∀ indexed, data.Accepts fun world received =>
      Holds world received indexed
  index_accepts :
    ∀ received, index.Accepts fun world indexed =>
      Holds world received indexed
  index_settles :
    ∀ received, index.Settles fun world indexed =>
      Holds world received indexed

namespace Receivers

variable {ω : Type}

/- No flush of the container fails. -/
def Settled
    (receivers : Receivers ω) : Prop :=
  ∀ indexed, receivers.data.Settles fun world received =>
    receivers.Holds world received indexed

end Receivers

------------------------------------------------------------
-- Pieces
------------------------------------------------------------

namespace Outlet

variable {ω : Type} {receivers : Receivers ω}

/- Pieces are delivered one after another and counted. -/
theorem perform_putAll_of_accepts
    {channel : Channel ω}
    {Holds : ω → Bytes → Prop}
    (hAccepts : channel.Accepts Holds)
    (pieces : List Bytes)
    (outlet : Outlet ω)
    (world : ω)
    {held : Bytes}
    (hChannel : outlet.channel = channel)
    (hHolds : Holds world held) :
    ∃ next,
      (putAll pieces).perform (outlet, world) =
        (.ok (),
          { outlet with
            written := outlet.written + pieces.flatten.length },
          next) ∧
      Holds next (held ++ pieces.flatten) := by
  induction pieces generalizing outlet world held with
  | nil => exact ⟨world, rfl, by simpa using hHolds⟩
  | cons piece pieces ih =>
    rcases hAccepts.deliver piece hHolds with
      ⟨middle, hPiece, hMiddle⟩
    have hPut :
        (put piece).perform (outlet, world) =
          (.ok (),
            { outlet with
              written := outlet.written + piece.length },
            middle) := by
      simp only [put, Step.perform_ofStep, hChannel, hPiece]
      rfl
    rcases ih
      { outlet with written := outlet.written + piece.length }
      middle hChannel hMiddle with ⟨next, hNext, hLast⟩
    refine ⟨next, ?_, ?_⟩
    · rw [putAll, Step.perform_bind_of_ok hPut, hNext]
      simp [Nat.add_assoc]
    · simpa using hLast

theorem perform_putAll
    (pieces : List Bytes)
    (outlet : Outlet ω)
    (world : ω)
    {received indexed : Bytes}
    (hChannel : outlet.channel = receivers.data)
    (hHolds : receivers.Holds world received indexed) :
    ∃ next,
      (putAll pieces).perform (outlet, world) =
        (.ok (),
          { outlet with
            written := outlet.written + pieces.flatten.length },
          next) ∧
      receivers.Holds next (received ++ pieces.flatten)
        indexed :=
  perform_putAll_of_accepts (receivers.data_accepts indexed)
    pieces outlet world hChannel hHolds

/- A single piece is put like any bytes. -/
theorem putAll_singleton
    (piece : Bytes) :
    (putAll [piece] : Action (Outlet ω × ω) Unit) =
      put piece := by
  funext s
  change (putAll [piece]).perform s = (put piece).perform s
  unfold putAll
  rw [Step.perform_bind]
  rcases (put piece).perform s with ⟨_ | _, _⟩
  · rfl
  · rfl

end Outlet

end SplitStream
