import Mathlib
import SplitStream.Checksum.Selection

/-
  Lists of checksums. A list may be read from its start, with
  what it has selected so far in hand, where one of the names
  replaces all of that; it still comes to the union of what
  the items add. So it matters which names stand in a list,
  but not where, how often or how they are spelled.

  Main declarations:
    * `Text.Respelled`
    * `Text.respelled_iff`
    * `Selection.Within`
    * `Selection.sweep?`
    * `Selection.ofList?_eq_sweep?`
    * `Selection.Accepted`
    * `Selection.Restated`
    * `Selection.lists_unite`
-/

------------------------------------------------------------
-- Spelling
------------------------------------------------------------

namespace SplitStream

namespace Text

/- A text of blanks alone. -/
def Blank
    (text : List Char) : Prop :=
  ∀ c ∈ text, isBlank c = true

/- Texts are equal but for the case of ASCII letters. -/
def SameLetters
    (a b : List Char) : Prop :=
  a.map Char.toLower = b.map Char.toLower

/-
  Two spellings of one text: they are equal but for blanks
  around them and for the case of ASCII letters.
-/
inductive Respelled : List Char → List Char → Prop where
  | intro
      {front core back front' core' back' : List Char} :
      Blank front →
      Blank back →
      Blank front' →
      Blank back' →
      SameLetters core core' →
        Respelled (front ++ core ++ back)
          (front' ++ core' ++ back')

theorem isBlank_of_letter
    {c : Char}
    (hLow : 'A'.toNat ≤ c.toNat)
    (hHigh : c.toNat ≤ 'z'.toNat) :
    isBlank c = false := by
  change 65 ≤ c.toNat at hLow
  change c.toNat ≤ 122 at hHigh
  simp only [isBlank, blankRanges, List.any_cons, List.any_nil,
    Bool.or_false, Bool.or_eq_false_iff, Bool.and_eq_false_imp,
    decide_eq_true_eq, decide_eq_false_iff_not]
  omega

/- Whether a character is blank does not depend on its case. -/
theorem isBlank_toLower
    (c : Char) :
    isBlank c.toLower = isBlank c := by
  by_cases hUpper : c.val ≥ 'A'.val ∧ c.val ≤ 'Z'.val
  · have hLow : 65 ≤ c.toNat := hUpper.1
    have hHigh : c.toNat ≤ 90 := hUpper.2
    have hLower : c.toLower.toNat = c.toNat + 32 := by
      simp only [Char.toLower, dif_pos hUpper, Char.toNat]
      rw [UInt32.toNat_add]
      change (c.toNat + 32) % 4294967296 = c.toNat + 32
      omega
    have hBelow : c.toNat ≤ 'z'.toNat :=
      Nat.le_trans hHigh (by decide)
    rw [isBlank_of_letter hLow hBelow, isBlank_of_letter]
    · change 65 ≤ _
      omega
    · change _ ≤ 122
      omega
  · rw [Char.toLower, dif_neg hUpper]

theorem trimBlanks_map_toLower
    (text : List Char) :
    trimBlanks (text.map Char.toLower) =
      (trimBlanks text).map Char.toLower := by
  have hSame : isBlank ∘ Char.toLower = isBlank :=
    funext isBlank_toLower
  simp only [trimBlanks, List.dropWhile_map, hSame,
    ← List.map_reverse]

/- Blanks before and behind a text are removed. -/
theorem trimBlanks_enclosed
    {front core back : List Char}
    (hFront : Blank front)
    (hBack : Blank back) :
    trimBlanks (front ++ core ++ back) = trimBlanks core := by
  have hReverse : ∀ c ∈ back.reverse, isBlank c = true :=
    fun c hMem => hBack c (List.mem_reverse.mp hMem)
  rw [trimBlanks, trimBlanks, List.append_assoc,
    List.dropWhile_append_of_pos hFront, List.dropWhile_append]
  split
  · rename_i hCore
    rw [List.dropWhile_eq_nil_iff.mpr hBack,
      List.isEmpty_iff.mp hCore]
  · rw [List.reverse_append,
      List.dropWhile_append_of_pos hReverse]

/- What is removed from a text are blanks. -/
theorem exists_enclosed
    (text : List Char) :
    ∃ front back,
      Blank front ∧
      Blank back ∧
      text = front ++ trimBlanks text ++ back := by
  let rest := text.dropWhile isBlank
  refine
    ⟨text.takeWhile isBlank,
      (rest.reverse.takeWhile isBlank).reverse, ?_, ?_, ?_⟩
  · exact List.all_eq_true.mp List.all_takeWhile
  · intro c hMem
    exact
      List.all_eq_true.mp List.all_takeWhile c
        (List.mem_reverse.mp hMem)
  · have hRest :
        trimBlanks text ++ (rest.reverse.takeWhile isBlank).reverse =
          rest := by
      rw [trimBlanks, ← List.reverse_append,
        List.takeWhile_append_dropWhile, List.reverse_reverse]
    rw [List.append_assoc, hRest, List.takeWhile_append_dropWhile]

theorem trimBlanks_eq_nil_iff
    {text : List Char} :
    trimBlanks text = [] ↔ Blank text := by
  constructor
  · intro hNone
    rcases exists_enclosed text with
      ⟨front, back, hFront, hBack, hText⟩
    rw [hNone, List.append_nil] at hText
    intro c hMem
    rw [hText] at hMem
    exact (List.mem_append.mp hMem).elim (hFront c) (hBack c)
  · intro hBlank
    have hNoBlanks : Blank [] := by
      intro c hMem
      cases hMem
    have hTrim : trimBlanks (text ++ [] ++ []) = trimBlanks [] :=
      trimBlanks_enclosed hBlank hNoBlanks
    rw [List.append_nil, List.append_nil] at hTrim
    exact hTrim

/- Spellings of one text are equal once they are trimmed. -/
theorem respelled_iff
    {a b : List Char} :
    Respelled a b ↔ SameLetters (trimBlanks a) (trimBlanks b) := by
  constructor
  · rintro ⟨hFront, hBack, hFront', hBack', hCore⟩
    rw [trimBlanks_enclosed hFront hBack,
      trimBlanks_enclosed hFront' hBack', SameLetters,
      ← trimBlanks_map_toLower, ← trimBlanks_map_toLower, hCore]
  · intro hSame
    rcases exists_enclosed a with ⟨front, back, hFront, hBack, hA⟩
    rcases exists_enclosed b with
      ⟨front', back', hFront', hBack', hB⟩
    rw [hA, hB]
    exact .intro hFront hBack hFront' hBack' hSame

end Text

------------------------------------------------------------
-- Unions
------------------------------------------------------------

namespace Selection

/- All checksums of a selection are among those of another. -/
def Within
    (a b : Selection) : Prop :=
  a.union b = b

variable {a b c : Selection}

theorem union_assoc
    (a b c : Selection) :
    (a.union b).union c = a.union (b.union c) := by
  simp [union, Bool.or_assoc]

theorem union_comm
    (a b : Selection) :
    a.union b = b.union a := by
  simp [union, Bool.or_comm]

theorem empty_union
    (a : Selection) :
    empty.union a = a := by
  simp [union, empty]

theorem union_empty
    (a : Selection) :
    a.union empty = a := by
  simp [union, empty]

theorem union_full
    (a : Selection) :
    a.union full = full := by
  simp [union, full]

theorem Within.refl
    (a : Selection) :
    a.Within a := by
  simp [Within, union]

theorem Within.antisymm
    (hAB : a.Within b)
    (hBA : b.Within a) :
    a = b :=
  calc
    a = b.union a := hBA.symm
    _ = a.union b := union_comm b a
    _ = b := hAB

theorem Within.trans
    (hAB : a.Within b)
    (hBC : b.Within c) :
    a.Within c := by
  rw [Within, ← hBC, ← union_assoc, hAB]

theorem empty_within
    (a : Selection) :
    empty.Within a :=
  empty_union a

theorem within_union_left
    (a b : Selection) :
    a.Within (a.union b) := by
  rw [Within, ← union_assoc, Within.refl a]

theorem within_union_right
    (a b : Selection) :
    b.Within (a.union b) := by
  simp [Within, union, Bool.or_left_comm]

theorem union_within
    (hA : a.Within c)
    (hB : b.Within c) :
    (a.union b).Within c := by
  rw [Within, union_assoc, hB, hA]

------------------------------------------------------------
-- Items
------------------------------------------------------------

/- Spellings of one item add the same. -/
theorem ofItem?_of_respelled
    {item other : List Char}
    (h : Text.Respelled item other) :
    ofItem? item = ofItem? other := by
  rw [ofItem?, ofItem?, Text.respelled_iff.mp h]

/- A blank item adds nothing. -/
theorem ofItem?_of_blank
    {item : List Char}
    (h : Text.Blank item) :
    ofItem? item = some empty := by
  rw [ofItem?, Text.trimBlanks_eq_nil_iff.mpr h]
  rfl

/- The names that an item may have. -/
def names : List String :=
  ["none", "all", "adler32-d", "adler32-c", "crc32-d", "crc32-c"]

/-
  An item is empty or one of the names, but for blanks around
  it and for the case of ASCII letters.
-/
def Accepted
    (item : List Char) : Prop :=
  Text.trimBlanks item = [] ∨
    ∃ name ∈ names,
      Text.SameLetters (Text.trimBlanks item) name.toList

/- Names are in small letters, so it is they that are found. -/
theorem accepted_iff
    {item : List Char} :
    Accepted item ↔
      String.ofList ((Text.trimBlanks item).map Char.toLower) ∈
        "" :: names := by
  have hSmall :
      ∀ name ∈ names,
        name.toList.map Char.toLower = name.toList := by
    simp [names]
  constructor
  · rintro (hNone | ⟨name, hName, hSame⟩)
    · rw [hNone]
      exact List.mem_cons_self
    · rw [hSame, hSmall name hName, String.ofList_toList]
      exact List.mem_cons_of_mem _ hName
  · intro hMem
    rcases List.mem_cons.mp hMem with hNone | hName
    · left
      simpa [← String.toList_inj] using hNone
    · right
      refine ⟨_, hName, ?_⟩
      rw [Text.SameLetters, hSmall _ hName, String.toList_ofList]

theorem isSome_ofItem?_iff
    {item : List Char} :
    (ofItem? item).isSome = true ↔ Accepted item := by
  rw [accepted_iff, ofItem?]
  split <;> simp_all [names]

/-
  The selection after one more item, which is trimmed and not
  empty: a name is added to what is held or replaces it.
-/
def take?
    (held : Selection)
    (item : List Char) : Option Selection :=
  match String.ofList (item.map Char.toLower) with
  | "none" => some held
  | "all" => some full
  | "adler32-d" => some { held with plainAdler := true }
  | "adler32-c" => some { held with packedAdler := true }
  | "crc32-d" => some { held with plainCrc := true }
  | "crc32-c" => some { held with packedCrc := true }
  | _ => none

/- An item adds to what is held what it adds by itself. -/
theorem take?_trimBlanks
    {item : List Char}
    (hItem : ¬ Text.Blank item)
    (held : Selection) :
    take? held (Text.trimBlanks item) =
      (ofItem? item).map held.union := by
  have hWord :
      String.ofList ((Text.trimBlanks item).map Char.toLower) ≠
        "" := by
    simpa [← String.toList_inj, Text.trimBlanks_eq_nil_iff]
      using hItem
  rw [take?, ofItem?]
  generalize String.ofList _ = word at hWord ⊢
  split
  · simp [union_empty]
  · simp [union_full]
  · simp [union, empty]
  · simp [union, empty]
  · simp [union, empty]
  · simp [union, empty]
  · split <;> simp_all

------------------------------------------------------------
-- Lists
------------------------------------------------------------

/- The items of a list are what its commas divide. -/
theorem items_eq_splitOn
    (cs : List Char) :
    items cs = cs.splitOn ',' := by
  induction cs with
  | nil => rfl
  | cons c cs ih =>
    rw [items, List.splitOn_cons_eq_if_modifyHead, ih]
    by_cases hComma : c = ','
    · simp [hComma]
    · rw [if_neg hComma, if_neg (by simpa using hComma)]
      cases hItems : cs.splitOn ',' with
      | nil => exact absurd hItems (List.splitOn_ne_nil _ _)
      | cons item rest => rfl

/- A comma between two lists divides no item of either. -/
theorem items_append_comma
    (cs ds : List Char) :
    items (cs ++ ',' :: ds) = items cs ++ items ds := by
  simp only [items_eq_splitOn, List.splitOn]
  exact List.splitOnP_append_cons cs ds (by simp)

theorem ofItems?_append
    (xs ys : List (List Char)) :
    ofItems? (xs ++ ys) =
      match ofItems? xs, ofItems? ys with
      | some s, some t => some (s.union t)
      | _, _ => none := by
  induction xs with
  | nil =>
    cases hYs : ofItems? ys with
    | none => simp [ofItems?, hYs]
    | some t => simp [ofItems?, hYs, empty_union]
  | cons item xs ih =>
    rw [List.cons_append, ofItems?, ofItems?, ih]
    cases ofItem? item with
    | none => rfl
    | some first =>
      cases ofItems? xs with
      | none => rfl
      | some s =>
        cases ofItems? ys with
        | none => rfl
        | some t =>
          simp [union_assoc]

theorem isSome_ofItems?_iff
    {items : List (List Char)} :
    (ofItems? items).isSome = true ↔
      ∀ item ∈ items, Accepted item := by
  induction items with
  | nil => simp [ofItems?]
  | cons item rest ih =>
    rw [List.forall_mem_cons, ← ih, ← isSome_ofItem?_iff,
      ofItems?]
    cases ofItem? item <;> cases ofItems? rest <;> simp

/-
  The selection that is reached by taking one item after
  another, blank ones left out. An unknown item ends it.
-/
def sweep?
    (list : String) : Option Selection :=
  let trimmed :=
    (list.toList.splitOn ',').map Text.trimBlanks
  (trimmed.filter (· ≠ [])).foldlM take? empty

/- Items add to what is held as they do to nothing. -/
theorem foldlM_take?
    (items : List (List Char))
    (held : Selection) :
    ((items.map Text.trimBlanks).filter (· ≠ [])).foldlM
        take? held =
      (ofItems? items).map held.union := by
  induction items generalizing held with
  | nil => simp [ofItems?, union_empty]
  | cons item rest ih =>
    rw [List.map_cons, ofItems?]
    by_cases hBlank : Text.Blank item
    · have hNone := Text.trimBlanks_eq_nil_iff.mpr hBlank
      rw [List.filter_cons_of_neg (by simpa using hNone), ih,
        ofItem?_of_blank hBlank]
      cases ofItems? rest <;> simp [empty_union]
    · have hSome := mt Text.trimBlanks_eq_nil_iff.mp hBlank
      rw [List.filter_cons_of_pos (by simpa using hSome),
        List.foldlM_cons, take?_trimBlanks hBlank]
      cases ofItem? item with
      | none => rfl
      | some first =>
        change List.foldlM take? (held.union first) _ = _
        rw [ih]
        cases ofItems? rest <;> simp [union_assoc]

theorem ofList?_eq_sweep?
    (list : String) :
    ofList? list = sweep? list := by
  have hUnion : empty.union = id :=
    funext empty_union
  rw [sweep?, foldlM_take?, ← items_eq_splitOn, hUnion,
    Option.map_id]
  rfl

------------------------------------------------------------
-- Restated Lists
------------------------------------------------------------

/-
  Each item is among some others but for its spelling, or it
  is blank.
-/
def Covered
    (items others : List (List Char)) : Prop :=
  ∀ item ∈ items,
    Text.Blank item ∨
      ∃ other ∈ others, Text.Respelled item other

/-
  Two lists of the same items: in any order, any number of
  times, in any spelling, and with any blank ones.
-/
def Restated
    (a b : String) : Prop :=
  Covered (a.toList.splitOn ',') (b.toList.splitOn ',') ∧
    Covered (b.toList.splitOn ',') (a.toList.splitOn ',')

/- A list selects all that one of its items adds. -/
theorem exists_within_of_mem
    {items : List (List Char)}
    {t : Selection}
    (hItems : ofItems? items = some t)
    {item : List Char}
    (hMem : item ∈ items) :
    ∃ s, ofItem? item = some s ∧ s.Within t := by
  induction items generalizing t with
  | nil => cases hMem
  | cons first rest ih =>
    rw [ofItems?] at hItems
    rcases Option.bind_eq_some_iff.mp hItems with
      ⟨s, hFirst, hMore⟩
    rcases Option.bind_eq_some_iff.mp hMore with
      ⟨others, hRest, hUnion⟩
    cases hUnion
    rcases List.mem_cons.mp hMem with rfl | hLater
    · exact ⟨s, hFirst, within_union_left s others⟩
    · rcases ih hRest hLater with ⟨u, hItem, hWithin⟩
      refine ⟨u, hItem, hWithin.trans ?_⟩
      exact within_union_right s others

/- Items that are covered select no more than the others. -/
theorem exists_within_of_covered
    {items others : List (List Char)}
    {t : Selection}
    (hOthers : ofItems? others = some t)
    (hCovered : Covered items others) :
    ∃ s, ofItems? items = some s ∧ s.Within t := by
  induction items with
  | nil => exact ⟨empty, rfl, empty_within t⟩
  | cons item rest ih =>
    rcases List.forall_mem_cons.mp hCovered with ⟨hItem, hRest⟩
    rcases ih hRest with ⟨s, hSome, hWithin⟩
    have hFirst : ∃ u, ofItem? item = some u ∧ u.Within t := by
      rcases hItem with hBlank | ⟨other, hMem, hSame⟩
      · exact ⟨empty, ofItem?_of_blank hBlank, empty_within t⟩
      · rw [ofItem?_of_respelled hSame]
        exact exists_within_of_mem hOthers hMem
    rcases hFirst with ⟨u, hAdds, hAdded⟩
    refine ⟨u.union s, ?_, union_within hAdded hWithin⟩
    rw [ofItems?, hAdds, hSome]
    rfl

theorem ofItems?_of_covered
    {items others : List (List Char)}
    (hCovered : Covered items others)
    (hCovers : Covered others items) :
    ofItems? items = ofItems? others := by
  cases hOthers : ofItems? others with
  | some t =>
    rcases exists_within_of_covered hOthers hCovered with
      ⟨s, hItems, hWithin⟩
    rcases exists_within_of_covered hItems hCovers with
      ⟨t', hSame, hBack⟩
    cases hOthers.symm.trans hSame
    rw [hItems, hWithin.antisymm hBack]
  | none =>
    cases hItems : ofItems? items with
    | none => rfl
    | some s =>
      rcases exists_within_of_covered hItems hCovers with
        ⟨t, hSome, _⟩
      cases hOthers.symm.trans hSome

/-
  A comma joins two lists to the union of what they select,
  unless one of them is refused, and a list is refused exactly
  if one of its items is neither blank nor a name. What a list
  selects is what is reached by taking its items one after
  another; and lists of the same items, in any order and any
  spelling, select the same.
-/
theorem lists_unite :
    (∀ a b : String,
      ofList? (a ++ "," ++ b) =
        match ofList? a, ofList? b with
        | some s, some t => some (s.union t)
        | _, _ => none) ∧
    (∀ list : String,
      ofList? list = sweep? list ∧
      ((ofList? list).isSome = true ↔
        ∀ item ∈ list.toList.splitOn ',', Accepted item)) ∧
    ∀ a b : String, Restated a b → ofList? a = ofList? b := by
  refine ⟨?_, ?_, ?_⟩
  · intro a b
    have hText :
        (a ++ "," ++ b).toList = a.toList ++ ',' :: b.toList := by
      simp
    rw [ofList?, hText, items_append_comma, ofItems?_append]
    rfl
  · intro list
    refine ⟨ofList?_eq_sweep? list, ?_⟩
    rw [← items_eq_splitOn]
    exact isSome_ofItems?_iff
  · rintro a b ⟨hCovered, hCovers⟩
    rw [← items_eq_splitOn, ← items_eq_splitOn]
      at hCovered hCovers
    exact ofItems?_of_covered hCovered hCovers

/- Another order, other blanks, capitals and a repetition. -/
theorem lists_unite_of_restated :
    Restated "crc32-d, Adler32-C" " ADLER32-c,,crc32-D ,crc32-d" ∧
      ofList? "crc32-d, Adler32-C" =
        some { empty with plainCrc := true, packedAdler := true } ∧
      ofList? "crc32-d, Adler32-C" =
        ofList? " ADLER32-c,,crc32-D ,crc32-d" := by
  have hItems :
      items "crc32-d, Adler32-C".toList =
        ["crc32-d".toList, " Adler32-C".toList] := by
    cbv
  have hOthers :
      items " ADLER32-c,,crc32-D ,crc32-d".toList =
        [" ADLER32-c".toList, "".toList, "crc32-D ".toList,
          "crc32-d".toList] := by
    cbv
  have hRestated :
      Restated "crc32-d, Adler32-C"
        " ADLER32-c,,crc32-D ,crc32-d" := by
    rw [Restated, ← items_eq_splitOn, ← items_eq_splitOn, hItems,
      hOthers]
    simp [Covered, Text.respelled_iff, Text.SameLetters,
      Text.Blank, Text.trimBlanks, Text.isBlank, Text.blankRanges]
  exact ⟨hRestated, by cbv, lists_unite.2.2 _ _ hRestated⟩

end Selection

end SplitStream
