import SplitStream.Proofs.Container.Segments
import SplitStream.Proofs.Source.Stability

/-
  Containers that have been cut short. What is left is whole
  segments and some bytes of the segment behind them. It is a
  container again if no more than eight bytes are left behind
  a terminator, since these are too few to be recognised as
  the start of a further member.

  Main declarations:
    * `Segment.Leads`
    * `Segment.Framed.split`
    * `Segment.inside`
    * `Segment.EndsNear`
    * `Segment.Severed`
    * `Segment.Remains`
    * `Segment.Framed.remains`
-/

------------------------------------------------------------
-- Leading Segments
------------------------------------------------------------

namespace SplitStream

namespace Segment

/-
  Segments lead from the frames of one member to further
  frames of it, or to those of a later member. The frames
  before and behind them record the given checksums.
-/
inductive Leads :
    Selection → List Segment → Selection → Prop where
  | here (checksums : Selection) :
      Leads checksums [] checksums
  | next {checksums last : Selection} {fields : Header}
      {rest : List Segment} :
      fields.Regular →
        Leads (.ofFlags fields.flags) rest last →
          Leads checksums (terminator :: header fields :: rest)
            last
  | frame {checksums last : Selection} {content : PackedBlock}
      {rest : List Segment} :
      content.Fits →
        Leads checksums rest last →
          Leads checksums (.frame checksums content :: rest) last

/- Before every frame, a container leads to it. -/
theorem Framed.split
    {first checksums : Selection}
    {front back : List Segment}
    {content : PackedBlock}
    (h :
      Framed first (front ++ .frame checksums content :: back)) :
    Leads first front checksums ∧
      content.Fits ∧
      Framed checksums back := by
  generalize hAll : front ++ .frame checksums content :: back =
    segments at h
  induction h generalizing front with
  | last first =>
    rcases front with _ | ⟨segment, front⟩
    · cases hAll
    · cases List.append_eq_nil_iff.mp (List.cons.inj hAll).2
      contradiction
  | @next _ fields rest hRegular _ ih =>
    rcases front with _ | ⟨segment, _ | ⟨second, front⟩⟩
    · cases hAll
    · cases hAll
    · cases hAll
      rcases ih rfl with ⟨hLeads, hFits, hBack⟩
      exact ⟨.next hRegular hLeads, hFits, hBack⟩
  | @frame _ other rest hOther hRest ih =>
    rcases front with _ | ⟨segment, front⟩
    · cases hAll
      exact ⟨.here _, hOther, hRest⟩
    · cases hAll
      rcases ih rfl with ⟨hLeads, hFits, hBack⟩
      exact ⟨.frame hOther hLeads, hFits, hBack⟩

/- Segments lead on from where others lead to. -/
theorem Leads.append
    {first middle last : Selection}
    {front back : List Segment}
    (hFront : Leads first front middle)
    (hBack : Leads middle back last) :
    Leads first (front ++ back) last := by
  induction hFront with
  | here _ => exact hBack
  | next hRegular _ ih => exact .next hRegular (ih hBack)
  | frame hFits _ ih => exact .frame hFits (ih hBack)

/- What leads to the frames of a container is part of one. -/
theorem Leads.framed
    {first last : Selection}
    {front back : List Segment}
    (hFront : Leads first front last)
    (hBack : Framed last back) :
    Framed first (front ++ back) := by
  induction hFront with
  | here _ => exact hBack
  | next hRegular _ ih => exact .next hRegular (ih hBack)
  | frame hFits _ ih => exact .frame hFits (ih hBack)

------------------------------------------------------------
-- Segments Inside A Cut
------------------------------------------------------------

/- The segments that lie wholly in the first `n` bytes. -/
def inside
    (n : Nat) : List Segment → List Segment
  | [] => []
  | segment :: rest =>
      if segment.encode.length ≤ n then
        segment :: inside (n - segment.encode.length) rest
      else
        []

/-
  The first `n` bytes end with a terminator, or with no more
  than eight bytes behind one.
-/
def EndsNear
    (n : Nat)
    (segments : List Segment) : Prop :=
  ∃ front back,
    segments = front ++ terminator :: back ∧
    (layout (front ++ [terminator])).length ≤ n ∧
    n ≤ (layout (front ++ [terminator])).length + 8

/- A whole segment is inside, before what else is. -/
theorem inside_cons
    (segment : Segment)
    (rest : List Segment)
    (n : Nat) :
    inside (segment.encode.length + n) (segment :: rest) =
      segment :: inside n rest := by
  rw [inside, if_pos (Nat.le_add_right _ _),
    Nat.add_sub_cancel_left]

/- Whole segments are inside, before what else is. -/
theorem inside_append
    (front back : List Segment)
    (n : Nat) :
    inside ((layout front).length + n) (front ++ back) =
      front ++ inside n back := by
  induction front with
  | nil => simp
  | cons segment front ih =>
    rw [layout_cons, List.length_append, Nat.add_assoc,
      List.cons_append, inside_cons, ih, List.cons_append]

/- Nothing is inside where the first segment is cut. -/
theorem inside_of_lt
    {segment : Segment}
    {n : Nat}
    (hShort : n < segment.encode.length)
    (rest : List Segment) :
    inside n (segment :: rest) = [] := by
  rw [inside, if_neg (Nat.not_le.mpr hShort)]

/- Behind a whole segment, the end may be near this one. -/
theorem endsNear_cons_iff
    (segment : Segment)
    (rest : List Segment)
    (n : Nat) :
    EndsNear (segment.encode.length + n) (segment :: rest) ↔
      (segment = terminator ∧ n ≤ 8) ∨ EndsNear n rest := by
  constructor
  · rintro ⟨front, back, hSplit, hLe, hNear⟩
    cases front with
    | nil =>
      cases hSplit
      rw [List.nil_append, layout_cons, layout_nil,
        List.append_nil] at hNear
      exact .inl ⟨rfl, by omega⟩
    | cons first front =>
      cases hSplit
      rw [List.cons_append, layout_cons, List.length_append]
        at hLe hNear
      exact .inr ⟨front, back, rfl, by omega, by omega⟩
  · rintro (⟨rfl, hFew⟩ | ⟨front, back, rfl, hLe, hNear⟩)
    · refine ⟨[], rest, rfl, ?_, ?_⟩
      · rw [List.nil_append, layout_cons, layout_nil,
          List.append_nil]
        omega
      · rw [List.nil_append, layout_cons, layout_nil,
          List.append_nil]
        omega
    · refine ⟨segment :: front, back, rfl, ?_, ?_⟩
      · rw [List.cons_append, layout_cons, List.length_append]
        omega
      · rw [List.cons_append, layout_cons, List.length_append]
        omega

/- Behind a header, the same ends are near. -/
theorem endsNear_header_iff
    (fields : Header)
    (rest : List Segment)
    (n : Nat) :
    EndsNear ((header fields).encode.length + n)
        (header fields :: rest) ↔
      EndsNear n rest := by
  rw [endsNear_cons_iff]
  constructor
  · rintro (⟨hOther, _⟩ | hNear)
    · cases hOther
    · exact hNear
  · exact .inr

/- A header is too long for an end to be near across it. -/
theorem nine_le_header
    (fields : Header) :
    9 ≤ (header fields).encode.length := by
  rw [encode, Header.length_encode, Header.encodedLength]
  omega

/- Behind what leads to frames, no other ends are near. -/
theorem endsNear_append_iff
    {first last : Selection}
    {front back : List Segment}
    (hFront : Leads first front last)
    (n : Nat) :
    EndsNear ((layout front).length + n) (front ++ back) ↔
      EndsNear n back := by
  induction hFront with
  | here _ => simp
  | @next _ _ fields rest _ _ ih =>
    have hLong := nine_le_header fields
    simp only [layout_cons, List.length_append, Nat.add_assoc,
      List.cons_append, endsNear_header_iff,
      endsNear_cons_iff terminator, ih]
    constructor
    · rintro (⟨_, hFew⟩ | hNear)
      · omega
      · exact hNear
    · exact .inr
  | @frame _ _ content rest _ _ ih =>
    simp only [layout_cons, List.length_append, Nat.add_assoc,
      List.cons_append, endsNear_cons_iff, ih]
    constructor
    · rintro (⟨hOther, _⟩ | hNear)
      · cases hOther
      · exact hNear
    · exact .inr

/- The end is near nothing where the first segment is cut. -/
theorem not_endsNear_of_lt
    {segment : Segment}
    {n : Nat}
    (hShort : n < segment.encode.length)
    (rest : List Segment) :
    ¬ EndsNear n (segment :: rest) := by
  rintro ⟨front, back, hSplit, hLe, _⟩
  cases front with
  | nil =>
    cases hSplit
    rw [List.nil_append, layout_cons, layout_nil,
      List.append_nil] at hLe
    omega
  | cons first front =>
    cases hSplit
    rw [List.cons_append, layout_cons, List.length_append] at hLe
    omega

------------------------------------------------------------
-- Severed Segments
------------------------------------------------------------

/-
  A cut goes through the first of some segments, or through a
  header behind a terminator. Of the header, enough is left
  to recognise it.
-/
inductive Severed
    (checksums : Selection) : List Segment → Bytes → Prop where
  | frame {content : PackedBlock} {back : List Segment}
      {left missing : Bytes} :
      content.Fits →
      missing ≠ [] →
      left ++ missing = content.encode checksums →
        Severed checksums (.frame checksums content :: back) left
  | terminator {back : List Segment} {left missing : Bytes} :
      missing ≠ [] →
      left ++ missing = Frame.terminator →
        Severed checksums (.terminator :: back) left
  | header {fields : Header} {back : List Segment}
      {left missing : Bytes} :
      fields.Regular →
      9 ≤ left.length →
      missing ≠ [] →
      left ++ missing = fields.encode →
        Severed checksums (.terminator :: .header fields :: back)
          (Frame.terminator ++ left)

/-
  What a cut leaves of segments is a container with a few
  bytes behind it.
-/
structure Closes
    (checksums : Selection)
    (segments : List Segment)
    (rest : Bytes)
    (front : List Segment)
    (left : Bytes) : Prop where
  framed : Framed checksums front
  subset : front ⊆ segments
  layout_eq : rest = layout front ++ left
  few : left.length < 9
  near : EndsNear rest.length segments
  inside_eq : inside rest.length segments = front

/-
  What a cut leaves of segments leads to one that is severed.
-/
structure Breaks
    (checksums : Selection)
    (segments : List Segment)
    (rest : Bytes)
    (front : List Segment)
    (last : Selection)
    (left : Bytes) : Prop where
  leads : Leads checksums front last
  subset : front ⊆ segments
  severed : ∃ back, back ⊆ segments ∧ Severed last back left
  layout_eq : rest = layout front ++ left
  far : ¬ EndsNear rest.length segments
  blocks_eq :
    blocks (inside rest.length segments) = blocks front

/- A cut leaves a container, or it severs a segment. -/
def Remains
    (checksums : Selection)
    (segments : List Segment)
    (rest : Bytes) : Prop :=
  (∃ front left, Closes checksums segments rest front left) ∨
    ∃ front last left,
      Breaks checksums segments rest front last left

variable
  {checksums : Selection} {segments : List Segment}
  {rest : Bytes}

/- A cut goes through the first segment. -/
theorem remains_of_severed
    {segment : Segment}
    (hSevered : Severed checksums (segment :: segments) rest)
    (hShort : rest.length < segment.encode.length) :
    Remains checksums (segment :: segments) rest := by
  right
  exact
    ⟨[], checksums, rest,
      { leads := .here checksums
        subset := List.nil_subset _
        severed := ⟨_, List.Subset.refl _, hSevered⟩
        layout_eq := rfl
        far := not_endsNear_of_lt hShort segments
        blocks_eq := by rw [inside_of_lt hShort segments] }⟩

/- A cut behind what leads to segments is a cut of these. -/
theorem Remains.behind
    {first : Selection}
    {lead : List Segment}
    (hLead : Leads first lead checksums)
    (hRemains : Remains checksums segments rest) :
    Remains first (lead ++ segments) (layout lead ++ rest) := by
  have hNear :
      EndsNear ((layout lead).length + rest.length)
          (lead ++ segments) ↔
        EndsNear rest.length segments :=
    endsNear_append_iff hLead rest.length
  have hInside := inside_append lead segments rest.length
  rw [← List.length_append] at hNear hInside
  have hSubset {front : List Segment} (hFront : front ⊆ segments) :
      lead ++ front ⊆ lead ++ segments :=
    List.append_subset.mpr
      ⟨List.subset_append_left lead segments,
        List.subset_append_of_subset_right lead hFront⟩
  rcases hRemains with ⟨front, left, h⟩ | ⟨front, last, left, h⟩
  · left
    refine ⟨lead ++ front, left, ?_⟩
    exact
      { framed := hLead.framed h.framed
        subset := hSubset h.subset
        layout_eq := by
          rw [h.layout_eq, layout_append, List.append_assoc]
        few := h.few
        near := hNear.mpr h.near
        inside_eq := by rw [hInside, h.inside_eq] }
  · right
    rcases h.severed with ⟨back, hBack, hSevered⟩
    refine ⟨lead ++ front, last, left, ?_⟩
    exact
      { leads := hLead.append h.leads
        subset := hSubset h.subset
        severed :=
          ⟨back, List.subset_append_of_subset_right lead hBack,
            hSevered⟩
        layout_eq := by
          rw [h.layout_eq, layout_append, List.append_assoc]
        far := fun hFar => h.far (hNear.mp hFar)
        blocks_eq := by
          rw [hInside, blocks_append, blocks_append, h.blocks_eq] }

/- A cut through a header that follows a terminator. -/
theorem remains_of_header
    {fields : Header}
    {left missing : Bytes}
    (hRegular : fields.Regular)
    (hMissing : missing ≠ [])
    (hLeft : left ++ missing = fields.encode) :
    Remains checksums (.terminator :: .header fields :: segments)
      (Frame.terminator ++ left) := by
  have hShort : left.length < (header fields).encode.length := by
    have hSome := List.length_pos_iff.mpr hMissing
    rw [encode, ← hLeft, List.length_append]
    omega
  have hLength :
      (Frame.terminator ++ left).length =
        terminator.encode.length + left.length :=
    List.length_append
  have hNear :=
    endsNear_cons_iff terminator (.header fields :: segments)
      left.length
  have hInside :=
    inside_cons terminator (.header fields :: segments)
      left.length
  rw [← hLength] at hNear hInside
  rw [inside_of_lt hShort] at hInside
  rcases Nat.lt_or_ge left.length 9 with hFew | hLong
  · left
    refine ⟨[.terminator], left, ?_⟩
    exact
      { framed := .last checksums
        subset := by simp
        layout_eq := by simp [encode]
        few := hFew
        near := hNear.mpr (.inl ⟨rfl, by omega⟩)
        inside_eq := hInside }
  · right
    refine ⟨[], checksums, Frame.terminator ++ left, ?_⟩
    exact
      { leads := .here checksums
        subset := List.nil_subset _
        severed :=
          ⟨_, List.Subset.refl _,
            .header hRegular hLong hMissing hLeft⟩
        layout_eq := rfl
        far := by
          rw [hNear]
          rintro (⟨_, hFew⟩ | hHeader)
          · omega
          · exact not_endsNear_of_lt hShort segments hHeader
        blocks_eq := by
          rw [hInside]
          rfl }

/-
  Whatever a cut leaves of the frames of a member and what
  follows them: a container, or a severed segment. The
  induction is on the segments, and the cut goes through the
  first one or behind it.
-/
theorem Framed.remains
    {more : Bytes}
    (hFramed : Framed checksums segments)
    (hRest : rest ++ more = layout segments) :
    Remains checksums segments rest := by
  induction hFramed generalizing rest with
  | last checksums =>
    rw [layout_cons, layout_nil] at hRest
    rcases Reading.cut_of_append hRest with
      ⟨missing, hMissing, hCut⟩ | ⟨left, rfl, hNone⟩
    · have hSome := List.length_pos_iff.mpr hMissing
      apply remains_of_severed (.terminator hMissing hCut)
      rw [← hCut, List.length_append]
      omega
    · rcases List.append_eq_nil_iff.mp hNone with ⟨rfl, _⟩
      left
      refine ⟨[.terminator], [], ?_⟩
      exact
        { framed := .last checksums
          subset := List.Subset.refl _
          layout_eq := by simp
          few := by simp
          near := ⟨[], [], rfl, by simp, by simp⟩
          inside_eq := by simp [inside] }
  | @next checksums fields segments hRegular _ ih =>
    rw [layout_cons, layout_cons] at hRest
    rcases Reading.cut_of_append hRest with
      ⟨missing, hMissing, hCut⟩ | ⟨left, rfl, hLeft⟩
    · have hSome := List.length_pos_iff.mpr hMissing
      apply remains_of_severed (.terminator hMissing hCut)
      rw [← hCut, List.length_append]
      omega
    · rcases Reading.cut_of_append hLeft with
        ⟨missing, hMissing, hCut⟩ | ⟨behind, rfl, hBehind⟩
      · exact remains_of_header hRegular hMissing hCut
      · have hLead :
            Leads checksums [.terminator, .header fields]
              (.ofFlags fields.flags) :=
          .next hRegular (.here _)
        have hRemains := (ih hBehind).behind hLead
        rw [layout_cons, layout_cons, layout_nil,
          List.append_nil, List.append_assoc] at hRemains
        exact hRemains
  | @frame checksums content segments hFits _ ih =>
    rw [layout_cons] at hRest
    rcases Reading.cut_of_append hRest with
      ⟨missing, hMissing, hCut⟩ | ⟨left, rfl, hLeft⟩
    · have hSome := List.length_pos_iff.mpr hMissing
      apply remains_of_severed (.frame hFits hMissing hCut)
      rw [← hCut, List.length_append]
      omega
    · have hLead :
          Leads checksums [.frame checksums content] checksums :=
        .frame hFits (.here _)
      have hRemains := (ih hLeft).behind hLead
      rw [layout_cons, layout_nil, List.append_nil] at hRemains
      exact hRemains

end Segment

end SplitStream
