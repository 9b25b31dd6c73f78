import SplitStream.Proofs.Storage.Places
import SplitStream.Storage.ContainerFile

/-
  What single operations do to a tree. Each of them fails
  without changing the tree, or it changes one entry, and
  renaming two. Directories stay where they are, so texts
  keep their places.

  Main declarations:
    * `FileSystem.Sound`
    * `FileSystem.createFile_cases`
    * `FileSystem.removeFile_cases`
    * `FileSystem.rename_cases`
    * `FileSystem.Thins`
    * `ContainerFile.removeIfPresent_cases`
-/

------------------------------------------------------------
-- Sound Trees
------------------------------------------------------------

namespace SplitStream

namespace FileSystem

variable {fs fs' : FileSystem} {text : String} {number : Nat}

/-
  A tree of directories: every entry is in a directory, no
  file has two names, and numbers of files have been used.
-/
structure Sound
    (fs : FileSystem) : Prop where
  parents :
    ∀ names name,
      fs.node? (names ++ [name]) ≠ none →
        fs.node? names = some .directory
  distinct :
    ∀ names other number,
      fs.node? names = some (.file number) →
      fs.node? other = some (.file number) →
        names = other
  used :
    ∀ names number,
      fs.node? names = some (.file number) → number < fs.next

/- What has entries below it is a directory. -/
theorem Sound.directory_of_below
    (hSound : fs.Sound)
    {names rest : List String}
    (hBelow : fs.node? (names ++ rest) ≠ none)
    (hRest : rest ≠ []) :
    fs.node? names = some .directory := by
  induction rest generalizing names with
  | nil => contradiction
  | cons name rest ih =>
    apply hSound.parents names name
    rw [List.append_cons] at hBelow
    by_cases hLast : rest = []
    · rwa [hLast, List.append_nil] at hBelow
    · rw [ih hBelow hLast]
      simp

/- Away from the working directory, entries are in the table. -/
theorem node?_of_ne_nil
    {names : List String}
    (hNames : names ≠ []) :
    fs.node? names = fs.nodes.get? names := by
  cases names with
  | nil => contradiction
  | cons name names => rfl

theorem ne_nil_of_node?_ne
    {names : List String}
    (hNode : fs.node? names ≠ some .directory) :
    names ≠ [] := by
  intro hNil
  rw [hNil] at hNode
  exact hNode rfl

/- An entry other than the working directory has a directory. -/
theorem Sound.parent
    (hSound : fs.Sound)
    {names : List String}
    (hSome : names ≠ [])
    (hNode : fs.node? names ≠ none) :
    ∃ parent name,
      names = parent ++ [name] ∧
      fs.node? parent = some .directory := by
  rcases List.eq_nil_or_concat names with hNil | ⟨parent, name, rfl⟩
  · contradiction
  · rw [List.concat_eq_append] at hNode
    exact
      ⟨parent, name, List.concat_eq_append,
        hSound.parents parent name hNode⟩

/- The place of a text is in a directory. -/
theorem Sound.parent_of_place?
    (hSound : fs.Sound)
    {place : Place}
    (hPlace : fs.place? text = some place)
    (hSome : place.names ≠ []) :
    ∃ parent name,
      place.names = parent ++ [name] ∧
      fs.node? parent = some .directory := by
  rcases place?_eq_some_iff.mp hPlace with
    ⟨path, start, names, _, hStart, hNames, rfl⟩
  have hBegin := node?_of_begin hStart
  have hHere :
      ∀ lastFirst : List String,
        fs.node? lastFirst.reverse = some .directory →
        names = lastFirst.reverse →
          ∃ parent name,
            names = parent ++ [name] ∧
            fs.node? parent = some .directory := by
    rintro lastFirst hNode rfl
    exact hSound.parent hSome (by simp [hNode])
  rcases List.eq_nil_or_concat path.steps with
    hNil | ⟨front, step, hSteps⟩
  · rw [hNil] at hNames
    cases hNames
    exact hHere start hBegin rfl
  · rw [hSteps, List.concat_eq_append] at hNames
    rcases follow_append hBegin hNames with
      ⟨parent, hParent, hEnd, _⟩
    rw [Path.descend] at hEnd
    split at hEnd
    · exact hHere parent hParent hEnd
    split at hEnd
    · split at hEnd
      · exact hHere parent hParent hEnd
      · refine hHere (parent.drop 1) ?_ hEnd
        cases parent with
        | nil => exact hParent
        | cons name above =>
          rw [List.reverse_cons] at hParent
          exact hSound.parents above.reverse name (by simp [hParent])
    · exact
        ⟨parent.reverse, step, hEnd.trans List.reverse_cons, hParent⟩

/- Nothing is below a file. -/
theorem Sound.node?_below
    (hSound : fs.Sound)
    {names rest : List String}
    (hNames : fs.node? names ≠ some .directory)
    (hRest : rest ≠ []) :
    fs.node? (names ++ rest) = none := by
  apply Decidable.byContradiction
  intro hSome
  exact hNames (hSound.directory_of_below hSome hRest)

/- No new place is below a file. -/
theorem Sound.place_not_below
    (hSound : fs.Sound)
    {place : Place}
    (hPlace : fs.place? text = some place)
    {names : List String}
    (hFile : fs.node? names ≠ some .directory)
    (hDiffers : names ≠ place.names) :
    ¬ names <+: place.names := by
  intro hPrefix
  have hSome : place.names ≠ [] := by
    intro hNil
    rw [hNil, List.prefix_nil] at hPrefix
    exact ne_nil_of_node?_ne hFile hPrefix
  rcases hSound.parent_of_place? hPlace hSome with
    ⟨parent, name, hNames, hParent⟩
  rw [hNames] at hPrefix hDiffers
  rcases List.prefix_concat_iff.mp hPrefix with hEq | ⟨rest, rfl⟩
  · contradiction
  · by_cases hRest : rest = []
    · rw [hRest, List.append_nil] at hParent
      contradiction
    · rw [hSound.node?_below hFile hRest] at hParent
      contradiction

------------------------------------------------------------
-- Counting
------------------------------------------------------------

/- The tree after one more operation. -/
def counted
    (fs : FileSystem) : FileSystem :=
  { fs with step := fs.step + 1 }

@[simp]
theorem node?_counted
    (fs : FileSystem)
    (names : List String) :
    fs.counted.node? names = fs.node? names := by
  cases names <;> rfl

@[simp]
theorem place?_counted
    (fs : FileSystem)
    (text : String) :
    fs.counted.place? text = fs.place? text := by
  apply SameDirectories.place?_eq
  intro names
  rw [node?_counted]

@[simp]
theorem nodeAt?_counted
    (fs : FileSystem)
    (text : String) :
    fs.counted.nodeAt? text = fs.nodeAt? text := by
  simp [nodeAt?]

/- A tree with the same entries is as sound. -/
theorem Sound.congr
    (hSound : fs.Sound)
    (hNodes : ∀ names, fs'.node? names = fs.node? names)
    (hNext : fs.next ≤ fs'.next) :
    fs'.Sound where
  parents := by simpa only [hNodes] using hSound.parents
  distinct := by simpa only [hNodes] using hSound.distinct
  used := by
    intro names number hNode
    rw [hNodes] at hNode
    exact Nat.lt_of_lt_of_le (hSound.used names number hNode) hNext

theorem SameNames.sound
    (hSame : SameNames fs fs')
    (hSound : fs.Sound) :
    fs'.Sound :=
  hSound.congr hSame.node?_eq (Nat.le_of_eq hSame.next.symm)

theorem sameNames_counted
    (fs : FileSystem) :
    SameNames fs fs.counted where
  nodes := rfl
  next := rfl

theorem intact_counted
    (fs : FileSystem) :
    Intact fs fs.counted where
  nodes := rfl
  files := rfl

theorem sound_counted
    (hSound : fs.Sound) :
    fs.counted.Sound :=
  (sameNames_counted fs).sound hSound

/- An operation fails at once, or it is counted. -/
theorem perform_attempt
    (fs : FileSystem) :
    attempt.perform fs =
      (match fs.faults fs.step with
        | some kind => .error (.io kind)
        | none => .ok (),
      fs.counted) := by
  unfold attempt
  rw [Step.perform_bind_of_ok (Step.perform_get fs),
    Step.perform_bind_of_ok (Step.perform_set _ _)]
  cases fs.faults fs.step with
  | none => rfl
  | some kind => rfl

/- What an operation does behind its count. -/
theorem attempt_bind_cases
    {α : Type}
    (fs : FileSystem)
    (next : Unit → Action FileSystem α) :
    (∃ kind,
      fs.faults fs.step = some kind ∧
      (attempt >>= next).perform fs =
        (.error (.io kind), fs.counted)) ∨
    (attempt >>= next).perform fs =
      (next ()).perform fs.counted := by
  cases hFault : fs.faults fs.step with
  | some kind =>
    left
    refine ⟨kind, rfl, ?_⟩
    apply Step.perform_bind_of_error
    rw [perform_attempt, hFault]
  | none =>
    right
    apply Step.perform_bind_of_ok
    rw [perform_attempt, hFault]

/-
  What keeps an operation from a file: a reason outside the
  tree, or a name that is none of a file.
-/
def Hinders
    (fs : FileSystem)
    (text : String) : Prop :=
  fs.faults fs.step ≠ none ∨ ¬ fs.Admits text

theorem hinders_of_fault
    {kind : IoKind}
    (hFault : fs.faults fs.step = some kind)
    (text : String) :
    fs.Hinders text := by
  left
  simp [hFault]

theorem hinders_of_place?
    (hPlace : fs.place? text = none) :
    fs.Hinders text := by
  right
  rintro ⟨place, hSome, _⟩
  rw [hPlace] at hSome
  contradiction

theorem hinders_of_isDirectory
    {place : Place}
    (hPlace : fs.place? text = some place)
    (hDirectory : place.isDirectory = true) :
    fs.Hinders text := by
  right
  rintro ⟨other, hSome, hFile, _⟩
  rw [hPlace] at hSome
  cases hSome
  rw [hDirectory] at hFile
  contradiction

theorem hinders_of_node?
    {place : Place}
    (hPlace : fs.place? text = some place)
    (hNode : fs.node? place.names = some .directory) :
    fs.Hinders text := by
  right
  rintro ⟨other, hSome, _, hOther⟩
  rw [hPlace] at hSome
  cases hSome
  contradiction

------------------------------------------------------------
-- Single Entries
------------------------------------------------------------

/-
  Only the entry at some names may have changed, and it is no
  directory before or after.
-/
structure ChangesAt
    (names : List String)
    (fs fs' : FileSystem) : Prop where
  before : fs.node? names ≠ some .directory
  after : fs'.node? names ≠ some .directory
  others :
    ∀ other, other ≠ names → fs'.node? other = fs.node? other

theorem ChangesAt.sameDirectories
    {names : List String}
    (hChanges : ChangesAt names fs fs') :
    SameDirectories fs fs' := by
  intro other
  by_cases hOther : other = names
  · rw [hOther]
    exact
      iff_of_false hChanges.before hChanges.after
  · rw [hChanges.others other hOther]

/- The entry of a text that stands for another place stays. -/
theorem ChangesAt.nodeAt?_eq
    {names : List String}
    (hChanges : ChangesAt names fs fs')
    (hElsewhere :
      ∀ place ∈ fs.place? text, place.names ≠ names) :
    fs'.nodeAt? text = fs.nodeAt? text := by
  apply hChanges.sameDirectories.nodeAt?_eq
  intro place hPlace
  exact hChanges.others place.names (hElsewhere place hPlace)

------------------------------------------------------------
-- Creating
------------------------------------------------------------

/- The tree in which a file has no bytes. -/
def emptied
    (fs : FileSystem)
    (number : Nat) : FileSystem :=
  { fs with files := fs.files.set number .empty }

/- The tree with an empty new file. -/
def entered
    (fs : FileSystem)
    (names : List String) : FileSystem :=
  { fs with
    nodes := fs.nodes.set names (.file fs.next)
    files := fs.files.set fs.next .empty
    next := fs.next + 1 }

/-
  Creating a file fails, or it empties the file that is
  there, or it enters a new one.
-/
theorem createFile_cases
    (fs : FileSystem)
    (text : String) :
    (∃ e,
      (createFile text).perform fs = (.error e, fs.counted) ∧
      fs.Hinders text) ∨
    ∃ place number fs',
      (createFile text).perform fs = (.ok number, fs') ∧
      fs.place? text = some place ∧
      place.isDirectory = false ∧
      ((fs.node? place.names = some (.file number) ∧
          fs' = fs.counted.emptied number) ∨
        (fs.node? place.names = none ∧
          number = fs.next ∧
          fs' = fs.counted.entered place.names)) := by
  unfold createFile
  rcases attempt_bind_cases fs _ with
    ⟨kind, hFault, hPerform⟩ | hPerform
  · left
    exact ⟨.io kind, hPerform, hinders_of_fault hFault text⟩
  rw [hPerform]
  rcases locate_cases fs.counted text with
    ⟨place, hLocate, hPlace⟩ | ⟨kind, hLocate, hPlace⟩
  · rw [Step.perform_bind_of_ok hLocate]
    rw [place?_counted] at hPlace
    cases hDirectory : place.isDirectory with
    | true =>
      left
      exact
        ⟨.io .isADirectory, rfl,
          hinders_of_isDirectory hPlace hDirectory⟩
    | false =>
      simp only [Bool.false_eq_true, if_false]
      rw [Step.perform_bind_of_ok (Step.perform_get _),
        node?_counted]
      cases hNode : fs.node? place.names with
      | none =>
        right
        exact
          ⟨place, fs.next, _, rfl, hPlace, hDirectory,
            .inr ⟨hNode, rfl, rfl⟩⟩
      | some node =>
        cases node with
        | directory =>
          left
          exact
            ⟨.io .isADirectory, rfl, hinders_of_node? hPlace hNode⟩
        | file number =>
          right
          exact
            ⟨place, number, _, rfl, hPlace, hDirectory,
              .inl ⟨hNode, rfl⟩⟩
  · left
    rw [place?_counted] at hPlace
    exact
      ⟨.io kind, Step.perform_bind_of_error hLocate,
        hinders_of_place? hPlace⟩

theorem node?_entered_self
    {names : List String}
    (hNames : names ≠ []) :
    (fs.entered names).node? names = some (.file fs.next) := by
  rw [node?_of_ne_nil hNames]
  exact Table.get?_set_self _ _ _

theorem node?_entered
    {names other : List String}
    (hOther : other ≠ names) :
    (fs.entered names).node? other = fs.node? other := by
  cases other with
  | nil => rfl
  | cons name rest => exact Table.get?_set _ hOther _

/- A new entry in a directory keeps a tree sound. -/
theorem Sound.extend
    (hSound : fs.Sound)
    {parent : List String}
    {name : String}
    (hParent : fs.node? parent = some .directory)
    (hFree : fs.node? (parent ++ [name]) = none)
    (hOthers :
      ∀ other, other ≠ parent ++ [name] →
        fs'.node? other = fs.node? other)
    (hEntry :
      ∀ number,
        fs'.node? (parent ++ [name]) = some (.file number) →
          fs.next ≤ number ∧ number < fs'.next)
    (hNext : fs.next ≤ fs'.next) :
    fs'.Sound where
  parents := by
    have hKept :
        ∀ names,
          fs.node? names = some .directory →
            fs'.node? names = some .directory := by
      intro names hNames
      rw [hOthers, hNames]
      rintro rfl
      rw [hFree] at hNames
      contradiction
    intro names last hSome
    apply hKept
    by_cases hSame : names ++ [last] = parent ++ [name]
    · rw [List.append_inj_left' hSame rfl]
      exact hParent
    · rw [hOthers _ hSame] at hSome
      exact hSound.parents names last hSome
  distinct := by
    have hOld :
        ∀ names number,
          names ≠ parent ++ [name] →
          fs'.node? names = some (.file number) →
            fs.node? names = some (.file number) ∧
              number < fs.next := by
      intro names number hNames hFile
      rw [hOthers _ hNames] at hFile
      exact ⟨hFile, hSound.used names number hFile⟩
    have hApart :
        ∀ names number,
          names ≠ parent ++ [name] →
          fs'.node? names = some (.file number) →
            fs'.node? (parent ++ [name]) ≠
              some (.file number) := by
      intro names number hNames hFile hNew
      exact
        Nat.not_lt_of_le (hEntry number hNew).1
          (hOld names number hNames hFile).2
    intro names other number hNames hOther
    by_cases hFirst : names = parent ++ [name]
    · rw [hFirst] at hNames ⊢
      apply Decidable.byContradiction
      intro hSecond
      exact hApart other number (Ne.symm hSecond) hOther hNames
    · by_cases hSecond : other = parent ++ [name]
      · rw [hSecond] at hOther
        exact absurd hOther (hApart names number hFirst hNames)
      · exact
          hSound.distinct names other number
            (hOld names number hFirst hNames).1
            (hOld other number hSecond hOther).1
  used := by
    intro names number hFile
    by_cases hNames : names = parent ++ [name]
    · rw [hNames] at hFile
      exact (hEntry number hFile).2
    · rw [hOthers _ hNames] at hFile
      exact
        Nat.lt_of_lt_of_le (hSound.used names number hFile) hNext

/- A new file in a directory keeps the tree sound. -/
theorem sound_entered
    (hSound : fs.Sound)
    {parent : List String}
    {name : String}
    (hParent : fs.node? parent = some .directory)
    (hFree : fs.node? (parent ++ [name]) = none) :
    (fs.entered (parent ++ [name])).Sound := by
  apply hSound.extend hParent hFree
  · intro other hOther
    exact node?_entered hOther
  · intro number hFile
    rw [node?_entered_self (by simp)] at hFile
    cases hFile
    exact ⟨Nat.le_refl _, Nat.lt_succ_self _⟩
  · exact Nat.le_succ _

------------------------------------------------------------
-- Removing
------------------------------------------------------------

/- The tree without an entry. -/
def without
    (fs : FileSystem)
    (names : List String) : FileSystem :=
  { fs with nodes := fs.nodes.erase names }

/-
  Removing a file fails, or it takes the entry of a file out.
  It says that there is no file only if there is no entry,
  unless it has failed for a reason outside the tree; and
  nothing else is said of a name that can be one of a file.
-/
theorem removeFile_cases
    (fs : FileSystem)
    (text : String) :
    (∃ e,
      (removeFile text).perform fs = (.error e, fs.counted) ∧
      (e = .io .notFound →
        fs.nodeAt? text = none ∨
          fs.faults fs.step = some .notFound) ∧
      (e = .io .notFound ∨ fs.Hinders text)) ∨
    ∃ place number,
      (removeFile text).perform fs =
        (.ok (), fs.counted.without place.names) ∧
      fs.place? text = some place ∧
      fs.node? place.names = some (.file number) := by
  unfold removeFile
  rcases attempt_bind_cases fs _ with
    ⟨kind, hFault, hPerform⟩ | hPerform
  · left
    refine
      ⟨.io kind, hPerform, ?_, .inr (hinders_of_fault hFault text)⟩
    intro hKind
    cases hKind
    right
    exact hFault
  rw [hPerform]
  rcases locate_cases fs.counted text with
    ⟨place, hLocate, hPlace⟩ | ⟨kind, hLocate, hPlace⟩
  · rw [Step.perform_bind_of_ok hLocate,
      Step.perform_bind_of_ok (Step.perform_get _),
      node?_counted]
    rw [place?_counted] at hPlace
    cases hNode : fs.node? place.names with
    | none =>
      left
      refine ⟨.io .notFound, rfl, ?_, .inl rfl⟩
      intro _
      left
      rw [nodeAt?_of_place? hPlace, hNode]
    | some node =>
      cases node with
      | directory =>
        left
        exact
          ⟨.io .isADirectory, rfl, by simp,
            .inr (hinders_of_node? hPlace hNode)⟩
      | file number =>
        dsimp only
        cases hDirectory : place.isDirectory with
        | true =>
          left
          exact
            ⟨.io .notADirectory, rfl, by simp,
              .inr (hinders_of_isDirectory hPlace hDirectory)⟩
        | false =>
          right
          exact ⟨place, number, rfl, hPlace, hNode⟩
  · rw [place?_counted] at hPlace
    left
    refine
      ⟨.io kind, Step.perform_bind_of_error hLocate, ?_,
        .inr (hinders_of_place? hPlace)⟩
    intro _
    left
    rw [nodeAt?, hPlace]
    rfl

/-
  A tree that has lost some names of files, and is otherwise
  as it was.
-/
structure Thins
    (fs fs' : FileSystem) : Prop where
  nodes :
    ∀ names,
      fs'.node? names = fs.node? names ∨
        fs'.node? names = none ∧
          fs.node? names ≠ some .directory
  files : fs'.files = fs.files
  streams : fs'.streams = fs.streams
  next : fs'.next = fs.next
  faults : fs'.faults = fs.faults

theorem thins_counted
    (fs : FileSystem) :
    Thins fs fs.counted where
  nodes := by simp
  files := rfl
  streams := rfl
  next := rfl
  faults := rfl

theorem node?_without_self
    {names : List String}
    (hNames : names ≠ []) :
    (fs.without names).node? names = none := by
  rw [node?_of_ne_nil hNames]
  exact Table.get?_erase_self _ _

theorem node?_without
    {names other : List String}
    (hOther : other ≠ names) :
    (fs.without names).node? other = fs.node? other := by
  cases other with
  | nil => rfl
  | cons name rest => exact Table.get?_erase _ hOther

theorem Thins.sameDirectories
    (hThins : Thins fs fs') :
    SameDirectories fs fs' := by
  intro names
  rcases hThins.nodes names with hSame | ⟨hNone, hFile⟩
  · rw [hSame]
  · rw [hNone]
    exact iff_of_false hFile (by simp)

/- No entry comes into a tree that loses names. -/
theorem Thins.nodeAt?_eq_none
    (hThins : Thins fs fs')
    (hNone : fs.nodeAt? text = none) :
    fs'.nodeAt? text = none := by
  rw [← hNone]
  apply hThins.sameDirectories.nodeAt?_eq
  intro place hPlace
  rw [nodeAt?_of_place? hPlace] at hNone
  rcases hThins.nodes place.names with hSame | ⟨hGone, _⟩
  · exact hSame
  · rw [hGone, hNone]

theorem Thins.node?_file
    (hThins : Thins fs fs')
    {names : List String}
    (hFile : fs'.node? names = some (.file number)) :
    fs.node? names = some (.file number) := by
  rcases hThins.nodes names with hSame | ⟨hNone, _⟩
  · rw [← hSame, hFile]
  · rw [hNone] at hFile
    contradiction

theorem Thins.sound
    (hThins : Thins fs fs')
    (hSound : fs.Sound) :
    fs'.Sound where
  parents := by
    intro names name hSome
    apply (hThins.sameDirectories names).mp
    apply hSound.parents names name
    rcases hThins.nodes (names ++ [name]) with
      hSame | ⟨hNone, _⟩
    · rwa [← hSame]
    · contradiction
  distinct := by
    intro names other number hNames hOther
    exact
      hSound.distinct names other number
        (hThins.node?_file hNames) (hThins.node?_file hOther)
  used := by
    intro names number hNames
    rw [hThins.next]
    exact hSound.used names number (hThins.node?_file hNames)

/- The tree without the entry of a file. -/
theorem thins_without
    {names : List String}
    (hFile : fs.node? names = some (.file number)) :
    Thins fs (fs.counted.without names) where
  nodes := by
    have hNames : fs.node? names ≠ some .directory := by
      rw [hFile]
      simp
    intro other
    by_cases hOther : other = names
    · right
      rw [hOther]
      exact
        ⟨node?_without_self (ne_nil_of_node?_ne hNames), hNames⟩
    · left
      rw [node?_without hOther, node?_counted]
  files := rfl
  streams := rfl
  next := rfl
  faults := rfl

/- Whatever a removal comes to, it only takes a name. -/
theorem thins_removeFile
    (fs : FileSystem)
    (text : String) :
    Thins fs ((removeFile text).final fs) := by
  unfold Step.final
  rcases removeFile_cases fs text with
    ⟨e, hPerform, _, _⟩ | ⟨place, number, hPerform, _, hNode⟩
  · rw [hPerform]
    exact thins_counted fs
  · rw [hPerform]
    exact thins_without hNode

end FileSystem

/-
  Removing what may be there fails, or nothing is there any
  more and everything else is. No other reason may be taken
  for an absent file if there is one.
-/
theorem ContainerFile.removeIfPresent_cases
    {fs : FileSystem}
    (text : String)
    (hFault :
      fs.nodeAt? text ≠ none →
        fs.faults fs.step ≠ some .notFound) :
    (∃ e,
      (removeIfPresent text).perform fs =
        (.error e, fs.counted) ∧
      fs.Hinders text) ∨
    ∃ fs',
      (removeIfPresent text).perform fs = (.ok (), fs') ∧
      fs.Thins fs' ∧
      fs'.nodeAt? text = none ∧
      ∀ other,
        fs.Apart other text →
          fs'.nodeAt? other = fs.nodeAt? other := by
  unfold removeIfPresent
  rw [Step.perform_ofStep]
  rcases FileSystem.removeFile_cases fs text with
    ⟨e, hPerform, hAbsent, hHinders⟩ |
      ⟨place, number, hPerform, hPlace, hNode⟩
  · rw [hPerform]
    by_cases hKind : e = .io .notFound
    · right
      subst hKind
      refine
        ⟨fs.counted, rfl, FileSystem.thins_counted fs, ?_,
          fun other _ => fs.nodeAt?_counted other⟩
      rw [FileSystem.nodeAt?_counted]
      exact
        (hAbsent rfl).elim id fun hSaid =>
          Classical.byContradiction fun hSome =>
            hFault hSome hSaid
    · left
      refine ⟨e, ?_, hHinders.resolve_left hKind⟩
      split
      · rename_i hEq
        cases hEq
        contradiction
      · rfl
  · rw [hPerform]
    have hThins := FileSystem.thins_without hNode
    have hNames : fs.node? place.names ≠ some .directory := by
      rw [hNode]
      simp
    right
    refine ⟨_, rfl, hThins, ?_, ?_⟩
    · rw [← hThins.sameDirectories.place?_eq] at hPlace
      rw [FileSystem.nodeAt?_of_place? hPlace]
      exact
        FileSystem.node?_without_self
          (FileSystem.ne_nil_of_node?_ne hNames)
    · intro other hApart
      apply hThins.sameDirectories.nodeAt?_eq
      intro further hOther
      have hDiffers := hApart further hOther place hPlace
      exact
        (FileSystem.node?_without hDiffers).trans
          (FileSystem.node?_counted fs _)

namespace FileSystem

variable {fs fs' : FileSystem} {text : String} {number : Nat}

------------------------------------------------------------
-- Renaming
------------------------------------------------------------

/- A key with an entry has a value. -/
theorem find?_ne_none
    {entries : List (List String × Node)}
    {entry : List String × Node}
    (hEntry : entry ∈ entries) :
    Table.find? entry.1 entries ≠ none := by
  induction entries with
  | nil => contradiction
  | cons first rest ih =>
    rw [Table.find?]
    split
    · simp
    · rename_i hFirst
      apply ih
      rcases List.mem_cons.mp hEntry with rfl | hRest
      · contradiction
      · exact hRest

/- The entries below some names are found below others. -/
theorem find?_moved
    (old : List String)
    {new : List String}
    {entries : List (List String × Node)}
    (hEntries : ∀ entry ∈ entries, ¬ new <+: entry.1)
    (other : List String) :
    Table.find? other
        (entries.map fun (key, node) =>
          if old.isPrefixOf key then
            (new ++ key.drop old.length, node)
          else
            (key, node)) =
      if new <+: other then
        Table.find? (old ++ other.drop new.length) entries
      else if old <+: other then none
      else Table.find? other entries := by
  induction entries with
  | nil => simp [Table.find?]
  | cons entry rest ih =>
    rcases entry with ⟨key, node⟩
    have hRest :=
      ih fun later hLater =>
        hEntries later (List.mem_cons_of_mem _ hLater)
    have hKey : ¬ new <+: key :=
      hEntries (key, node) List.mem_cons_self
    rw [List.map_cons]
    dsimp only
    by_cases hPrefix : old.isPrefixOf key = true
    · rw [if_pos hPrefix, Table.find?, hRest]
      rcases List.isPrefixOf_iff_prefix.mp hPrefix with
        ⟨below, rfl⟩
      rw [List.drop_left]
      by_cases hOther : new <+: other
      · rcases hOther with ⟨last, rfl⟩
        simp [Table.find?]
      · have hNew : new ++ below ≠ other := by
          rintro rfl
          exact hOther (List.prefix_append _ _)
        rw [if_neg hNew, if_neg hOther, if_neg hOther]
        by_cases hGone : old <+: other
        · rw [if_pos hGone, if_pos hGone]
        · have hOld : old ++ below ≠ other := by
            rintro rfl
            exact hGone (List.prefix_append _ _)
          rw [if_neg hGone, if_neg hGone, Table.find?,
            if_neg hOld]
    · rw [if_neg hPrefix, Table.find?, hRest]
      rw [List.isPrefixOf_iff_prefix] at hPrefix
      by_cases hOther : new <+: other
      · have hNew : key ≠ other := by
          rintro rfl
          exact hKey hOther
        have hOld : key ≠ old ++ other.drop new.length := by
          rintro rfl
          exact hPrefix (List.prefix_append _ _)
        simp [hOther, hNew, hOld, Table.find?]
      · by_cases hGone : old <+: other
        · have hOld : key ≠ other := by
            rintro rfl
            exact hPrefix hGone
          simp [hOther, hGone, hOld]
        · simp [hOther, hGone, Table.find?]

/- The tree in which an entry has another name. -/
def moved
    (fs : FileSystem)
    (old new : List String) : FileSystem :=
  { fs with nodes := moveBelow old new fs.nodes }

/- The entries behind a move to names with nothing below. -/
theorem node?_moved
    {old new : List String}
    (hOld : ¬ old <+: new)
    (hNew : new ≠ [])
    (hBelow : ∀ rest, rest ≠ [] → fs.node? (new ++ rest) = none)
    (other : List String) :
    (fs.moved old new).node? other =
      if new <+: other then
        fs.node? (old ++ other.drop new.length)
      else if old <+: other then none
      else fs.node? other := by
  have hOldSome : old ≠ [] := by
    rintro rfl
    exact hOld List.nil_prefix
  cases other with
  | nil => simp [hOldSome, hNew, node?]
  | cons name rest =>
    have hEntries :
        ∀ entry ∈ Table.without new fs.nodes.entries,
          ¬ new <+: entry.1 := by
      rintro ⟨_, node⟩ hEntry ⟨below, rfl⟩
      rcases List.mem_filter.mp hEntry with ⟨hMem, hOther⟩
      have hRest : below ≠ [] := by
        rintro rfl
        simp at hOther
      apply find?_ne_none hMem
      have hNone := hBelow below hRest
      rwa [node?_of_ne_nil (by simp [hNew])] at hNone
    have hMoved := find?_moved old hEntries (name :: rest)
    rw [node?_of_ne_nil (by simp)]
    refine hMoved.trans ?_
    have hAway : ∀ last, old ++ last ≠ new := by
      rintro last rfl
      exact hOld (List.prefix_append _ _)
    rw [Table.find?_without (hAway _)]
    by_cases hOther : new <+: name :: rest
    · rw [if_pos hOther, if_pos hOther,
        node?_of_ne_nil (by simp [hOldSome])]
      rfl
    · have hDiffers : name :: rest ≠ new := by
        rintro rfl
        exact hOther (List.prefix_refl _)
      rw [if_neg hOther, if_neg hOther,
        Table.find?_without hDiffers]
      rfl

/- A file is the only entry that is moved with it. -/
theorem node?_moved_file
    (hSound : fs.Sound)
    {old new : List String}
    (hOld : fs.node? old = some (.file number))
    (hNew : fs.node? new ≠ some .directory)
    (hAway : ¬ old <+: new)
    (other : List String) :
    (fs.moved old new).node? other =
      if other = new then some (.file number)
      else if other = old then none
      else fs.node? other := by
  have hFile : fs.node? old ≠ some .directory := by
    rw [hOld]
    simp
  have hBelow :
      ∀ rest, rest ≠ [] → fs.node? (new ++ rest) = none :=
    fun _ hRest => hSound.node?_below hNew hRest
  rw [node?_moved hAway (ne_nil_of_node?_ne hNew) hBelow]
  by_cases hOther : new <+: other
  · rcases hOther with ⟨rest, rfl⟩
    rw [if_pos (List.prefix_append _ _), List.drop_left]
    by_cases hRest : rest = []
    · simp [hRest, hOld]
    · have hNone := hBelow rest hRest
      have hDiffers : new ++ rest ≠ old := by
        intro hSame
        rw [hSame, hOld] at hNone
        contradiction
      rw [hSound.node?_below hFile hRest, if_neg (by simp [hRest]),
        if_neg hDiffers, hNone]
  · have hDiffers : other ≠ new := by
      rintro rfl
      exact hOther (List.prefix_refl _)
    rw [if_neg hOther, if_neg hDiffers]
    by_cases hGone : old <+: other
    · rcases hGone with ⟨rest, rfl⟩
      rw [if_pos (List.prefix_append _ _)]
      by_cases hRest : rest = []
      · simp [hRest]
      · rw [if_neg (by simp [hRest]),
          hSound.node?_below hFile hRest]
    · have hKept : other ≠ old := by
        rintro rfl
        exact hGone (List.prefix_refl _)
      rw [if_neg hGone, if_neg hKept]

/- A file that is moved is found at its new place only. -/
theorem nodeAt?_moved
    {source target : String}
    {old new : Place}
    (hSound : fs.Sound)
    (hOld : fs.place? source = some old)
    (hFile : fs.node? old.names = some (.file number))
    (hNew : fs.place? target = some new)
    (hFree : fs.node? new.names ≠ some .directory)
    (hDiffers : old.names ≠ new.names) :
    (fs.moved old.names new.names).nodeAt? target =
        some (.file number) ∧
      SameDirectories fs (fs.moved old.names new.names) ∧
      ∀ other,
        fs.Apart other source →
        fs.Apart other target →
          (fs.moved old.names new.names).nodeAt? other =
            fs.nodeAt? other := by
  have hAway : ¬ old.names <+: new.names :=
    hSound.place_not_below hNew (by simp [hFile]) hDiffers
  have hMoved := node?_moved_file hSound hFile hFree hAway
  have hSame : SameDirectories fs (fs.moved old.names new.names) := by
    intro names
    rw [hMoved]
    by_cases hTarget : names = new.names
    · rw [if_pos hTarget, hTarget]
      exact iff_of_false hFree (by simp)
    rw [if_neg hTarget]
    by_cases hSource : names = old.names
    · rw [if_pos hSource, hSource, hFile]
      simp
    · rw [if_neg hSource]
  refine ⟨?_, hSame, ?_⟩
  · rw [← hSame.place?_eq] at hNew
    rw [nodeAt?_of_place? hNew, hMoved, if_pos rfl]
  · intro other hFromOld hFromNew
    apply hSame.nodeAt?_eq
    intro place hOther
    rw [hMoved, if_neg (hFromNew place hOther new hNew),
      if_neg (hFromOld place hOther old hOld)]

/-
  Renaming a file to another name that can be one of a file
  fails without changing the tree, or it moves the file.
-/
theorem rename_cases
    {source target : String}
    {old : Place}
    (hOld : fs.place? source = some old)
    (hFile : fs.node? old.names = some (.file number))
    (hFree :
      ∀ new ∈ fs.place? target,
        old.names ≠ new.names ∧
          fs.node? new.names ≠ some .directory) :
    (∃ e,
      (rename source target).perform fs =
        (.error e, fs.counted) ∧
      (fs.Hinders source ∨ fs.Hinders target)) ∨
    ∃ new,
      (rename source target).perform fs =
        (.ok (), fs.counted.moved old.names new.names) ∧
      fs.place? target = some new := by
  unfold rename
  rcases attempt_bind_cases fs _ with
    ⟨kind, hFault, hPerform⟩ | hPerform
  · left
    exact
      ⟨.io kind, hPerform, .inl (hinders_of_fault hFault source)⟩
  rw [hPerform]
  rcases locate_cases fs.counted source with
    ⟨place, hLocate, hPlace⟩ | ⟨kind, hLocate, hPlace⟩
  · rw [place?_counted, hOld] at hPlace
    cases hPlace
    rw [Step.perform_bind_of_ok hLocate]
    rcases locate_cases fs.counted target with
      ⟨new, hTarget, hNew⟩ | ⟨kind, hTarget, hNew⟩
    · rw [place?_counted] at hNew
      rcases hFree new hNew with ⟨hDiffers, hOther⟩
      rw [Step.perform_bind_of_ok hTarget,
        Step.perform_bind_of_ok (Step.perform_get _)]
      by_cases hDirectory : old.isDirectory ∨ new.isDirectory
      · left
        refine
          ⟨.io .notADirectory, ?_,
            hDirectory.imp (hinders_of_isDirectory hOld)
              (hinders_of_isDirectory hNew)⟩
        rcases hNode : fs.node? new.names with _ | _ | other
        · simp only [node?_counted, hFile, hNode, hDiffers,
            hDirectory, if_true, if_false, reduceCtorEq]
          rfl
        · contradiction
        · simp only [node?_counted, hFile, hNode, hDiffers,
            hDirectory, if_true, if_false, reduceCtorEq]
          rfl
      · right
        refine ⟨new, ?_, hNew⟩
        rcases hNode : fs.node? new.names with _ | _ | other
        · simp only [node?_counted, hFile, hNode, hDiffers,
            hDirectory, if_false, reduceCtorEq]
          rfl
        · contradiction
        · simp only [node?_counted, hFile, hNode, hDiffers,
            hDirectory, if_false, reduceCtorEq]
          rfl
    · left
      rw [place?_counted] at hNew
      exact
        ⟨.io kind, Step.perform_bind_of_error hTarget,
          .inr (hinders_of_place? hNew)⟩
  · rw [place?_counted, hOld] at hPlace
    contradiction

end FileSystem

end SplitStream
