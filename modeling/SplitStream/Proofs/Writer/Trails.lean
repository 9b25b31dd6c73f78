import SplitStream.Proofs.Container.Segments
import SplitStream.Proofs.Writer.Regrouping
import SplitStream.Writer.Container

/-
  Trails of container writers: the segments that a writer
  lays out one after another while it goes through the stages
  of its members. A trail is torn once a terminator was
  written and its member went on.

  Main declarations:
    * `Trail`
    * `Trail.header_eq`
    * `Trail.complete`
    * `Trail.TornAt`
    * `Trail.torn_split`
-/

------------------------------------------------------------
-- Trails
------------------------------------------------------------

namespace SplitStream

open Segment

/-
  The segments laid out by a writer that has reached a stage.
  The flag says that the trail is torn.
-/
inductive Trail
    (fields : Header)
    (checksums : Selection) :
    Bool → MemberStage → List Segment → Prop where
  | first : Trail fields checksums false .opened [.header fields]
  | frame
      {torn : Bool} {segments : List Segment}
      {content : PackedBlock} :
      Trail fields checksums torn .opened segments →
      content.Fits →
        Trail fields checksums torn .opened
          (segments ++ [.frame checksums content])
  | finish {torn : Bool} {segments : List Segment} :
      Trail fields checksums torn .opened segments →
        Trail fields checksums torn .finished
          (segments ++ [.terminator])
  | stray {torn : Bool} {segments : List Segment} :
      Trail fields checksums torn .opened segments →
        Trail fields checksums true .opened
          (segments ++ [.terminator])
  | reset {torn : Bool} {segments : List Segment} :
      Trail fields checksums torn .finished segments →
        Trail fields checksums torn .headerDue segments
  | member {torn : Bool} {segments : List Segment} :
      Trail fields checksums torn .headerDue segments →
        Trail fields checksums torn .opened
          (segments ++ [.header fields])

namespace Trail

variable
  {fields : Header} {checksums : Selection} {torn : Bool}
  {stage : MemberStage} {segments : List Segment}

/- Frames are laid out one after another. -/
theorem frames
    (h : Trail fields checksums torn .opened segments)
    {contents : List PackedBlock}
    (hFits : ∀ content ∈ contents, content.Fits) :
    Trail fields checksums torn .opened
      (segments ++ contents.map (Segment.frame checksums)) := by
  induction contents generalizing segments with
  | nil => simpa using h
  | cons content contents ih =>
    have hNext := h.frame (hFits content List.mem_cons_self)
    have hRest := ih hNext fun later hLater =>
      hFits later (List.mem_cons_of_mem _ hLater)
    simpa using hRest

/- All members have the same header. -/
theorem header_eq
    (h : Trail fields checksums torn stage segments) :
    ∀ other, .header other ∈ segments → other = fields := by
  induction h with
  | first => simp
  | frame _ _ ih => simpa using ih
  | finish _ ih => simpa using ih
  | stray _ ih => simpa using ih
  | reset _ ih => exact ih
  | member _ ih =>
    intro other hOther
    rcases List.mem_append.mp hOther with hOld | hNew
    · exact ih other hOld
    · exact Segment.header.inj (List.mem_singleton.mp hNew)

/-
  Segments that are not torn: an open member can be ended in
  any way, and otherwise all members are complete.
-/
def Tidy
    (checksums : Selection)
    (stage : MemberStage)
    (segments : List Segment) : Prop :=
  match stage with
  | .opened =>
      ∀ rest, Framed checksums rest → Complete (segments ++ rest)
  | _ => Complete segments

theorem tidy
    (h : Trail fields checksums torn stage segments)
    (hRegular : fields.Regular)
    (hFlags : Selection.ofFlags fields.flags = checksums)
    (hWhole : torn = false) :
    Tidy checksums stage segments := by
  induction h with
  | first =>
    intro rest hRest
    exact .intro hRegular (hFlags ▸ hRest)
  | frame _ hFits ih =>
    intro rest hRest
    rw [List.append_assoc]
    exact ih hWhole _ (.frame hFits hRest)
  | finish _ ih => exact ih hWhole _ (.last checksums)
  | stray _ _ => contradiction
  | reset _ ih => exact ih hWhole
  | member _ ih =>
    intro rest hRest
    rw [List.append_assoc]
    exact (ih hWhole).append (.intro hRegular (hFlags ▸ hRest))

/- Between members, a trail that is not torn is a container. -/
theorem complete
    (h : Trail fields checksums false stage segments)
    (hRegular : fields.Regular)
    (hFlags : Selection.ofFlags fields.flags = checksums)
    (hStage : stage ≠ .opened) :
    Complete segments := by
  have hTidy := h.tidy hRegular hFlags rfl
  cases stage with
  | opened => contradiction
  | finished => exact hTidy
  | headerDue => exact hTidy

------------------------------------------------------------
-- Torn Trails
------------------------------------------------------------

/-
  Segments that are torn: behind a container, there is
  something that is not another member.
-/
structure TornAt
    (stage : MemberStage)
    (front back : List Segment) : Prop where
  complete : Complete front
  strange : (layout back).head? ≠ some 0x89
  more : stage ≠ .opened → back ≠ []

/- What comes first behind the container stays there. -/
theorem TornAt.append
    {front back : List Segment}
    {segment : Segment}
    (h : TornAt stage front back)
    (hStrange :
      stage = .opened → segment.encode.head? ≠ some 0x89)
    (next : MemberStage) :
    TornAt next front (back ++ [segment]) where
  complete := h.complete
  strange := by
    rw [layout_append, List.head?_append]
    cases hHead : (layout back).head? with
    | some b =>
      have hFirst := h.strange
      rw [hHead] at hFirst
      exact hFirst
    | none =>
      have hNone : back = [] := by
        have hLength := length_le_layout back
        rw [List.head?_eq_none_iff.mp hHead] at hLength
        exact List.length_eq_zero_iff.mp (Nat.le_zero.mp hLength)
      have hOpened : stage = .opened := by
        cases stage with
        | opened => rfl
        | finished => exact absurd hNone (h.more (by simp))
        | headerDue => exact absurd hNone (h.more (by simp))
      simpa using hStrange hOpened
  more := by simp

/-
  A torn trail falls into a container, which ends with the
  first stray terminator, and what is laid out behind it.
-/
theorem torn_split
    (h : Trail fields checksums torn stage segments)
    (hRegular : fields.Regular)
    (hFlags : Selection.ofFlags fields.flags = checksums)
    (hTorn : torn = true) :
    ∃ front back,
      segments = front ++ back ∧ TornAt stage front back := by
  induction h with
  | first => contradiction
  | frame _ hFits ih =>
    rcases ih hTorn with ⟨front, back, rfl, hAt⟩
    refine
      ⟨front, _, List.append_assoc _ _ _, hAt.append ?_ _⟩
    intro _
    rw [encode, PackedBlock.encode_eq, List.head?_append]
    exact Frame.head_length_ne hFits.block_le
  | finish _ ih =>
    rcases ih hTorn with ⟨front, back, rfl, hAt⟩
    refine
      ⟨front, _, List.append_assoc _ _ _, hAt.append ?_ _⟩
    intro _
    exact Frame.head_length_ne (Nat.zero_le _)
  | @stray before _ hOpen ih =>
    cases before with
    | false =>
      have hTidy := hOpen.tidy hRegular hFlags rfl
      refine ⟨_, [], (List.append_nil _).symm, ?_⟩
      exact ⟨hTidy _ (.last checksums), by simp, by simp⟩
    | true =>
      rcases ih rfl with ⟨front, back, rfl, hAt⟩
      refine
        ⟨front, _, List.append_assoc _ _ _, hAt.append ?_ _⟩
      intro _
      exact Frame.head_length_ne (Nat.zero_le _)
  | reset _ ih =>
    rcases ih hTorn with ⟨front, back, rfl, hAt⟩
    exact
      ⟨front, back, rfl, hAt.complete, hAt.strange,
        fun _ => hAt.more (by simp)⟩
  | member _ ih =>
    rcases ih hTorn with ⟨front, back, rfl, hAt⟩
    refine
      ⟨front, _, List.append_assoc _ _ _, hAt.append ?_ _⟩
    intro hStage
    contradiction

end Trail

end SplitStream
