import SplitStream.Proofs.FrameIndex.Layout
import SplitStream.Proofs.FrameIndex.Lookup
import SplitStream.Proofs.FrameIndex.Slices

/-
  Indexes as they are built and searched. However an index
  is come by, it holds the offsets that were asked for as
  long as they increased, and what did not increase has
  changed nothing. Since its offsets increase, halving finds
  where a position stands among them.

  Main declarations:
    * `FrameIndex.Edit`
    * `FrameIndex.edited`
    * `FrameIndex.bisect`
    * `FrameIndex.bisect_eq`
    * `FrameIndex.searches_of_edits`
-/

------------------------------------------------------------
-- Edits
------------------------------------------------------------

namespace SplitStream

namespace FrameIndex

/-
  The ways to come by an index: an empty one, one of given
  offsets, one of given bytes, or the one at hand with an
  offset behind it.
-/
inductive Edit where
  | clear
  | adopt (values : List Nat)
  | parse (bs : Bytes)
  | push (offset : Nat)
  deriving DecidableEq

namespace Edit

/- What an edit makes of the index at hand. -/
def apply
    (edit : Edit)
    (index : FrameIndex) : Except Error FrameIndex :=
  match edit with
  | clear => .ok .empty
  | adopt values => ofOffsets values
  | parse bs => ofBytes bs
  | push offset => index.push offset

/- The offsets that an edit asks for. -/
def wanted
    (edit : Edit)
    (held : List Nat) : List Nat :=
  match edit with
  | clear => []
  | adopt values => values
  | parse bs =>
      (Bytes.pieces entrySize bs).map Bytes.ofBigEndian
  | push offset => held ++ [offset]

/- Bytes hold whole offsets. -/
def IsWhole : Edit → Prop
  | parse bs => entrySize ∣ bs.length
  | _ => True

instance
    (edit : Edit) : Decidable edit.IsWhole := by
  unfold IsWhole
  split <;> infer_instance

/- What an edit asks for is an index. -/
def Fits
    (edit : Edit)
    (held : List Nat) : Prop :=
  edit.IsWhole ∧ (edit.wanted held).Pairwise (· < ·)

instance
    (edit : Edit)
    (held : List Nat) : Decidable (edit.Fits held) :=
  inferInstanceAs (Decidable (_ ∧ _))

/- The offsets held after an edit, if it may fail. -/
def outcome
    (held : List Nat)
    (edit : Edit) : List Nat :=
  if edit.Fits held then edit.wanted held else held

end Edit

/- The index at hand after an edit, which may have failed. -/
def step
    (index : FrameIndex)
    (edit : Edit) : FrameIndex :=
  match edit.apply index with
  | .ok after => after
  | .error _ => index

/- The index at hand after some edits. -/
def edited
    (edits : List Edit) : FrameIndex :=
  edits.foldl step .empty

variable {index : FrameIndex}

theorem ofOffsets_of_not_pairwise
    {offsets : List Nat}
    (h : ¬ offsets.Pairwise (· < ·)) :
    ∃ e, ofOffsets offsets = .error e := by
  unfold ofOffsets
  split
  · rename_i hNone
    exact absurd (pairwise_of_disorder? hNone) h
  · exact ⟨_, rfl⟩

/- The first piece is a full one if there are bytes for it. -/
theorem pieces_append
    {size : Nat}
    (hSize : 0 < size)
    {piece : Bytes}
    (hPiece : piece.length = size)
    (rest : Bytes) :
    Bytes.pieces size (piece ++ rest) =
      piece :: Bytes.pieces size rest := by
  cases piece with
  | nil =>
    rw [← hPiece] at hSize
    contradiction
  | cons b more =>
    have hMore : more.length = size - 1 := by
      rw [List.length_cons] at hPiece
      omega
    rw [List.cons_append, Bytes.pieces, List.take_left' hMore,
      List.drop_left' hMore]

/- Whole offsets are decoded piece by piece. -/
theorem decodeOffsets_eq
    (count : Nat)
    {bs : Bytes}
    (hWhole : bs.length = entrySize * count) :
    decodeOffsets bs =
      (Bytes.pieces entrySize bs).map Bytes.ofBigEndian := by
  induction count generalizing bs with
  | zero =>
    rw [List.eq_nil_of_length_eq_zero hWhole, Bytes.pieces]
    rfl
  | succ count ih =>
    rcases exists_word_append hWhole with
      ⟨word, rest, rfl, hWord, hRest⟩
    rw [decodeOffsets_append hWord,
      pieces_append (by decide) hWord, ih hRest]
    rfl

/- A push asks for offsets that increase to the last one. -/
theorem pairwise_push_iff
    (index : FrameIndex)
    (offset : Nat) :
    (index.offsets ++ [offset]).Pairwise (· < ·) ↔
      ∀ previous,
        index.offsets.getLast? = some previous →
          previous < offset := by
  constructor
  · intro hOrder previous hLast
    have hMem := List.mem_of_getLast? hLast
    exact
      (List.pairwise_append.mp hOrder).2.2 previous hMem offset
        (by simp)
  · intro hLess
    cases hLast : index.offsets.getLast? with
    | none =>
      rw [List.getLast?_eq_none_iff.mp hLast]
      simp
    | some previous =>
      exact
        pairwise_push index.increasing hLast (hLess previous hLast)

/- An edit succeeds exactly if what it asks for is an index. -/
theorem Edit.apply_of_fits
    {edit : Edit}
    (hFits : edit.Fits index.offsets) :
    ∃ after,
      edit.apply index = .ok after ∧
      after.offsets = edit.wanted index.offsets := by
  rcases hFits with ⟨hWhole, hOrder⟩
  cases edit with
  | clear => exact ⟨.empty, rfl, rfl⟩
  | adopt values =>
    exact ⟨⟨values, hOrder⟩, ofOffsets_of_pairwise hOrder, rfl⟩
  | parse bs =>
    rcases hWhole with ⟨count, hCount⟩
    have hDecoded := decodeOffsets_eq count hCount
    rw [wanted, ← hDecoded] at hOrder
    refine ⟨⟨decodeOffsets bs, hOrder⟩, ?_, hDecoded⟩
    rw [apply, ofBytes, if_pos (Nat.mod_eq_zero_of_dvd ⟨count, hCount⟩)]
    exact ofOffsets_of_pairwise hOrder
  | push offset =>
    have hLess := (pairwise_push_iff index offset).mp hOrder
    rw [apply, FrameIndex.push]
    split
    · rename_i hNone
      refine ⟨_, rfl, ?_⟩
      rw [wanted, List.getLast?_eq_none_iff.mp hNone]
      rfl
    · rename_i previous hLast
      rw [dif_pos (hLess previous hLast)]
      exact ⟨_, rfl, rfl⟩

theorem Edit.apply_of_not_fits
    {edit : Edit}
    (hFits : ¬ edit.Fits index.offsets) :
    ∃ e, edit.apply index = .error e := by
  cases edit with
  | clear => exact absurd ⟨trivial, .nil⟩ hFits
  | adopt values =>
    exact ofOffsets_of_not_pairwise fun hOrder =>
      hFits ⟨trivial, hOrder⟩
  | parse bs =>
    rw [apply, ofBytes]
    split
    · rename_i hMod
      rcases Nat.dvd_of_mod_eq_zero hMod with ⟨count, hCount⟩
      apply ofOffsets_of_not_pairwise
      intro hOrder
      rw [decodeOffsets_eq count hCount] at hOrder
      exact hFits ⟨⟨count, hCount⟩, hOrder⟩
    · exact ⟨_, rfl⟩
  | push offset =>
    have hNot := mt (pairwise_push_iff index offset).mpr
      fun hOrder => hFits ⟨trivial, hOrder⟩
    rw [apply, FrameIndex.push]
    split
    · rename_i hNone
      simp [hNone] at hNot
    · rename_i previous hLast
      have hBack : ¬ previous < offset := by
        simpa [hLast] using hNot
      rw [dif_neg hBack]
      exact ⟨_, rfl⟩

/- An edit that fails leaves the index at hand as it is. -/
theorem offsets_step
    (index : FrameIndex)
    (edit : Edit) :
    (index.step edit).offsets = edit.outcome index.offsets := by
  by_cases hFits : edit.Fits index.offsets
  · rcases Edit.apply_of_fits hFits with ⟨after, hApply, hWanted⟩
    rw [step, hApply, Edit.outcome, if_pos hFits]
    exact hWanted
  · rcases Edit.apply_of_not_fits hFits with ⟨e, hApply⟩
    rw [step, hApply, Edit.outcome, if_neg hFits]

theorem offsets_edited
    (edits : List Edit) :
    (edited edits).offsets = edits.foldl Edit.outcome [] := by
  have hFrom :
      ∀ index : FrameIndex,
        (edits.foldl step index).offsets =
          edits.foldl Edit.outcome index.offsets := by
    induction edits with
    | nil => exact fun _ => rfl
    | cons edit edits ih =>
      intro index
      rw [List.foldl_cons, ih, offsets_step, List.foldl_cons]
  exact hFrom .empty

------------------------------------------------------------
-- Halving
------------------------------------------------------------

/-
  The place of the first offset that fails a test, among the
  `size` offsets from `start` on: half of them are left after
  a look at the one in the middle.
-/
def bisectFrom
    (passes : Nat → Bool)
    (offsets : List Nat)
    (start size : Nat) : Nat :=
  if size = 0 then
    start
  else
    let half := size / 2
    if offsets[start + half]?.any passes then
      bisectFrom passes offsets (start + half + 1)
        (size - half - 1)
    else
      bisectFrom passes offsets start half
termination_by size

/- The place of the first offset that fails a test. -/
def bisect
    (passes : Nat → Bool)
    (offsets : List Nat) : Nat :=
  bisectFrom passes offsets 0 offsets.length

variable {passes : Nat → Bool} {offsets : List Nat}

/- What passes a test that larger offsets pass too. -/
def Descends
    (passes : Nat → Bool) : Prop :=
  ∀ offset other,
    offset < other → passes other = true → passes offset = true

theorem descends_le
    (position : Nat) :
    Descends (· ≤ position) := by
  intro offset other hLess hOther
  simp only [decide_eq_true_eq] at hOther ⊢
  omega

theorem descends_lt
    (position : Nat) :
    Descends (· < position) := by
  intro offset other hLess hOther
  simp only [decide_eq_true_eq] at hOther ⊢
  omega

/- No offset passes behind the first one that fails. -/
theorem fails_of_mem_dropWhile
    (hPasses : Descends passes)
    (hOrder : offsets.Pairwise (· < ·)) :
    ∀ offset ∈ offsets.dropWhile passes, passes offset = false := by
  induction offsets with
  | nil => simp
  | cons first rest ih =>
    rw [List.pairwise_cons] at hOrder
    by_cases hFirst : passes first = true
    · rw [List.dropWhile_cons_of_pos hFirst]
      exact ih hOrder.2
    · rw [List.dropWhile_cons_of_neg hFirst]
      intro offset hMem
      rcases List.mem_cons.mp hMem with rfl | hMem
      · exact eq_false_of_ne_true hFirst
      · have hLess := hOrder.1 offset hMem
        exact
          eq_false_of_ne_true fun hPass =>
            hFirst (hPasses first offset hLess hPass)

/- A look at an offset tells on which side of the place it is. -/
theorem any_getElem?_iff
    (hPasses : Descends passes)
    (hOrder : offsets.Pairwise (· < ·))
    (place : Nat) :
    offsets[place]?.any passes = true ↔
      place < (offsets.takeWhile passes).length := by
  have hFails := fails_of_mem_dropWhile hPasses hOrder
  have hAll :=
    List.takeWhile_append_dropWhile (p := passes) (l := offsets)
  constructor
  · intro hAny
    apply Nat.lt_of_not_le
    intro hBehind
    rw [← hAll, List.getElem?_append_right hBehind,
      Option.any_eq_true] at hAny
    rcases hAny with ⟨offset, hThere, hPass⟩
    have hFail := hFails offset (List.mem_of_getElem? hThere)
    rw [hPass] at hFail
    contradiction
  · intro hBefore
    have hMem := List.getElem_mem hBefore
    rw [← hAll, List.getElem?_append_left hBefore,
      List.getElem?_eq_getElem hBefore, Option.any_some]
    exact List.all_eq_true.mp List.all_takeWhile _ hMem

/- Halving ends behind the last offset that passes. -/
theorem bisectFrom_eq
    (hPasses : Descends passes)
    (hOrder : offsets.Pairwise (· < ·))
    {start size : Nat}
    (hStart : start ≤ (offsets.takeWhile passes).length)
    (hStop : (offsets.takeWhile passes).length ≤ start + size) :
    bisectFrom passes offsets start size =
      (offsets.takeWhile passes).length := by
  fun_induction bisectFrom passes offsets start size with
  | case1 start => omega
  | case2 start size hSome half hPass ih =>
    rw [any_getElem?_iff hPasses hOrder] at hPass
    exact ih (by omega) (by omega)
  | case3 start size hSome half hFail ih =>
    rw [any_getElem?_iff hPasses hOrder] at hFail
    exact ih hStart (by omega)

theorem bisect_eq
    (hPasses : Descends passes)
    (hOrder : offsets.Pairwise (· < ·)) :
    bisect passes offsets = (offsets.takeWhile passes).length := by
  apply bisectFrom_eq hPasses hOrder
  · exact Nat.zero_le _
  · rw [Nat.zero_add]
    exact (List.takeWhile_sublist passes).length_le

/- The last offset at or before a position, by halving. -/
theorem startAtOrBefore_eq_bisect
    (index : FrameIndex)
    (position : Nat) :
    index.startAtOrBefore position =
      match bisect (· ≤ position) index.offsets with
      | 0 => index.offsets.head?
      | before + 1 => index.offsets[before]? := by
  have hFront :=
    List.takeWhile_prefix (fun o => decide (o ≤ position))
      (l := index.offsets)
  rw [startAtOrBefore,
    bisect_eq (descends_le position) index.increasing,
    List.getLast?_eq_getElem?]
  cases hLength :
    (index.offsets.takeWhile (· ≤ position)).length with
  | zero =>
    rw [List.eq_nil_of_length_eq_zero hLength]
    rfl
  | succ before =>
    have hBefore :
        before < (index.offsets.takeWhile (· ≤ position)).length := by
      omega
    have hInside := Nat.lt_of_lt_of_le hBefore hFront.length_le
    dsimp only
    rw [Nat.add_sub_cancel, List.getElem?_eq_getElem hBefore,
      hFront.getElem hBefore, List.getElem?_eq_getElem hInside]

/- The first offset at or after a position, by halving. -/
theorem nextFrom_eq_bisect
    (index : FrameIndex)
    (position : Nat) :
    index.nextFrom position =
      index.offsets[bisect (· < position) index.offsets]? := by
  rw [bisect_eq (descends_lt position) index.increasing, nextFrom]
  induction index.offsets with
  | nil => rfl
  | cons first rest ih =>
    by_cases hFirst : position ≤ first
    · simp [hFirst]
    · simp [hFirst, Nat.lt_of_not_le hFirst, ih]

------------------------------------------------------------
-- Searches
------------------------------------------------------------

/-
  What is found in an index: at or before a position the
  largest offset there is, or else the first one; at or
  after it the smallest one. The searches by halving find
  the same.
-/
structure Searches
    (index : FrameIndex)
    (position : Nat) : Prop where
  before_none :
    index.startAtOrBefore position = none ↔ index.offsets = []
  before_some :
    ∀ offset,
      index.startAtOrBefore position = some offset ↔
        index.Covers position offset
  next_none :
    index.nextFrom position = none ↔
      ∀ offset ∈ index.offsets, offset < position
  next_some :
    ∀ offset,
      index.nextFrom position = some offset ↔
        index.Leads position offset
  before_halving :
    index.startAtOrBefore position =
      match bisect (· ≤ position) index.offsets with
      | 0 => index.offsets.head?
      | before + 1 => index.offsets[before]?
  next_halving :
    index.nextFrom position =
      index.offsets[bisect (· < position) index.offsets]?

/-
  However an index has been come by, it holds what the edits
  asked for that could be met, in strictly increasing order.
  Any further edit succeeds exactly if it asks for an index,
  and otherwise changes nothing. All searches are right.
-/
theorem searches_of_edits
    (edits : List Edit) :
    let index := edited edits
    index.offsets = edits.foldl Edit.outcome [] ∧
    (edits.foldl Edit.outcome []).Pairwise (· < ·) ∧
    (∀ edit : Edit,
      if edit.Fits index.offsets then
        ∃ after,
          edit.apply index = .ok after ∧
          after = edited (edits ++ [edit]) ∧
          after.offsets = edit.wanted index.offsets
      else
        (∃ e, edit.apply index = .error e) ∧
          edited (edits ++ [edit]) = index) ∧
    ∀ position, index.Searches position := by
  intro index
  have hOffsets : index.offsets = edits.foldl Edit.outcome [] :=
    offsets_edited edits
  have hMore :
      ∀ edit, edited (edits ++ [edit]) = index.step edit := by
    intro edit
    exact List.foldl_append
  refine ⟨hOffsets, ?_, ?_, ?_⟩
  · rw [← hOffsets]
    exact index.increasing
  · intro edit
    rw [hMore]
    split
    · rename_i hFits
      rcases Edit.apply_of_fits hFits with ⟨after, hApply, hWanted⟩
      refine ⟨after, hApply, ?_, hWanted⟩
      rw [step, hApply]
    · rename_i hFits
      rcases Edit.apply_of_not_fits hFits with ⟨e, hApply⟩
      refine ⟨⟨e, hApply⟩, ?_⟩
      rw [step, hApply]
  · intro position
    exact
      { before_none := startAtOrBefore_eq_none_iff
        before_some := fun _ => startAtOrBefore_eq_some_iff
        next_none := nextFrom_eq_none_iff
        next_some := fun _ => nextFrom_eq_some_iff
        before_halving := index.startAtOrBefore_eq_bisect position
        next_halving := index.nextFrom_eq_bisect position }

end FrameIndex

end SplitStream
