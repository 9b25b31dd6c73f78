import SplitStream.Proofs.Storage.Trees

/-
  Trees that operations build are sound. An operation that
  fails leaves the entries as they were; one that succeeds
  adds an entry in a directory, takes one out, or moves one
  with everything below it.

  Main declarations:
    * `FileSystem.Sound.moved`
    * `FileSystem.Sound.rename`
    * `FileSystem.Built`
    * `FileSystem.Built.sound`
-/

------------------------------------------------------------
-- Adding And Removing
------------------------------------------------------------

namespace SplitStream

namespace FileSystem

variable {fs fs' : FileSystem} {number : Nat}

theorem sound_empty :
    empty.Sound where
  parents := by
    rintro (_ | ⟨_, _⟩) name hSome <;> exact absurd rfl hSome
  distinct := by
    rintro (_ | ⟨_, _⟩) other number hFile <;> cases hFile
  used := by
    rintro (_ | ⟨_, _⟩) number hFile <;> cases hFile

/- The root is an entry of the working directory here. -/
theorem sound_rooted :
    rooted.Sound := by
  have hFree : empty.node? ([] ++ [Path.root]) = none := rfl
  apply sound_empty.extend rfl hFree
  · rintro (_ | ⟨name, rest⟩) hOther
    · rfl
    · exact Table.get?_set Table.empty hOther Node.directory
  · intro number hFile
    cases hFile
  · exact Nat.le_refl _

theorem Sound.createFile
    (hSound : fs.Sound)
    (text : String) :
    ((FileSystem.createFile text).final fs).Sound := by
  have hCounted := sound_counted hSound
  unfold Step.final
  rcases createFile_cases fs text with
    ⟨e, hPerform, _⟩ |
      ⟨place, number, _, hPerform, hPlace, _, ⟨_, rfl⟩ | ⟨hNode, _, rfl⟩⟩
  · rw [hPerform]
    exact hCounted
  · rw [hPerform]
    exact hCounted.congr (node?_congr rfl) (Nat.le_refl _)
  · rw [hPerform]
    rw [← node?_counted] at hNode
    rw [← place?_counted] at hPlace
    have hSome : place.names ≠ [] :=
      ne_nil_of_node?_ne (by rw [hNode]; simp)
    rcases hCounted.parent_of_place? hPlace hSome with
      ⟨parent, name, hNames, hParent⟩
    rw [hNames] at hNode ⊢
    exact sound_entered hCounted hParent hNode

theorem Sound.removeFile
    (hSound : fs.Sound)
    (text : String) :
    ((FileSystem.removeFile text).final fs).Sound :=
  (thins_removeFile fs text).sound hSound

/- What is written to a file does not change the entries. -/
theorem Sound.writeAt
    (hSound : fs.Sound)
    (number position : Nat)
    (bs : Bytes) :
    ((FileSystem.writeAt number position bs).final fs).Sound := by
  have hCounted := sound_counted hSound
  unfold Step.final FileSystem.writeAt
  rcases attempt_bind_cases fs _ with
    ⟨kind, _, hPerform⟩ | hPerform
  · rw [hPerform]
    exact hCounted
  · rw [hPerform]
    exact hCounted.congr (node?_congr rfl) (Nat.le_refl _)

theorem Sound.makeDirectory
    (hSound : fs.Sound)
    (text : String) :
    ((FileSystem.makeDirectory text).final fs).Sound := by
  have hCounted := sound_counted hSound
  unfold Step.final FileSystem.makeDirectory
  rcases attempt_bind_cases fs _ with
    ⟨kind, _, hPerform⟩ | hPerform
  · rw [hPerform]
    exact hCounted
  rw [hPerform]
  rcases locate_cases fs.counted text with
    ⟨place, hLocate, hPlace⟩ | ⟨kind, hLocate, _⟩
  · rw [Step.perform_bind_of_ok hLocate,
      Step.perform_bind_of_ok (Step.perform_get _)]
    cases hNode : fs.counted.node? place.names with
    | some node => exact hCounted
    | none =>
      have hSome : place.names ≠ [] :=
        ne_nil_of_node?_ne (by rw [hNode]; simp)
      rcases hCounted.parent_of_place? hPlace hSome with
        ⟨parent, name, hNames, hParent⟩
      rw [hNames] at hNode ⊢
      apply hCounted.extend hParent hNode
      · intro other hOther
        cases other with
        | nil => rfl
        | cons first rest =>
          exact Table.get?_set fs.nodes hOther Node.directory
      · intro number hFile
        rw [node?_of_ne_nil (by simp)] at hFile
        have hEntry :
            (fs.nodes.set (parent ++ [name]) .directory).get?
                (parent ++ [name]) =
              some (.file number) :=
          hFile
        rw [Table.get?_set_self] at hEntry
        cases hEntry
      · exact Nat.le_refl _
  · rw [Step.perform_bind_of_error hLocate]
    exact hCounted

------------------------------------------------------------
-- Moving
------------------------------------------------------------

/-
  What is found behind a move has been below the old names,
  or it has stayed.
-/
theorem node?_moved_cases
    {old new names : List String}
    {node : Node}
    (hAway : ¬ old <+: new)
    (hNew : new ≠ [])
    (hBelow : ∀ rest, rest ≠ [] → fs.node? (new ++ rest) = none)
    (hNode : (fs.moved old new).node? names = some node) :
    (∃ rest,
      names = new ++ rest ∧
      fs.node? (old ++ rest) = some node) ∨
    ¬ new <+: names ∧ ¬ old <+: names ∧
      fs.node? names = some node := by
  rw [node?_moved hAway hNew hBelow] at hNode
  by_cases hTarget : new <+: names
  · rcases hTarget with ⟨rest, rfl⟩
    rw [if_pos (List.prefix_append _ _), List.drop_left] at hNode
    left
    exact ⟨rest, rfl, hNode⟩
  · rw [if_neg hTarget] at hNode
    by_cases hSource : old <+: names
    · rw [if_pos hSource] at hNode
      contradiction
    · rw [if_neg hSource] at hNode
      right
      exact ⟨hTarget, hSource, hNode⟩

/-
  A tree stays sound when an entry is moved into a directory
  outside of it, to names with nothing below.
-/
theorem Sound.moved
    (hSound : fs.Sound)
    {old parent : List String}
    {name : String}
    (hAway : ¬ old <+: parent ++ [name])
    (hParent : fs.node? parent = some .directory)
    (hBelow :
      ∀ rest, rest ≠ [] →
        fs.node? (parent ++ [name] ++ rest) = none) :
    (fs.moved old (parent ++ [name])).Sound := by
  have hNew : parent ++ [name] ≠ [] := by simp
  have hNode := node?_moved hAway hNew hBelow
  have hCases :
      ∀ {names node},
        (fs.moved old (parent ++ [name])).node? names =
            some node →
          (∃ rest,
            names = parent ++ [name] ++ rest ∧
            fs.node? (old ++ rest) = some node) ∨
          ¬ parent ++ [name] <+: names ∧ ¬ old <+: names ∧
            fs.node? names = some node :=
    node?_moved_cases hAway hNew hBelow
  constructor
  · intro names last hSome
    rcases Option.ne_none_iff_exists'.mp hSome with ⟨node, hLast⟩
    rcases hCases hLast with
      ⟨rest, hNames, hEntry⟩ | ⟨hTarget, hSource, hEntry⟩
    · rcases List.eq_nil_or_concat rest with rfl | ⟨above, step, rfl⟩
      · have hShorter : ¬ parent ++ [name] <+: parent := by
          intro hPrefix
          have hLength := hPrefix.length_le
          rw [List.length_append] at hLength
          exact Nat.not_succ_le_self _ hLength
        have hOutside : ¬ old <+: parent := by
          intro hPrefix
          exact hAway (hPrefix.trans (List.prefix_append _ _))
        rw [List.append_nil] at hNames
        rw [List.append_inj_left' hNames rfl, hNode,
          if_neg hShorter, if_neg hOutside, hParent]
      · rw [List.concat_eq_append, ← List.append_assoc] at hNames hEntry
        rw [List.append_inj_left' hNames rfl, hNode,
          if_pos (List.prefix_append _ _), List.drop_left]
        exact hSound.parents _ step (by rw [hEntry]; simp)
    · have hAbove :
          ∀ {front : List String},
            ¬ front <+: names ++ [last] → ¬ front <+: names := by
        intro front hFront hPrefix
        exact hFront (hPrefix.trans (List.prefix_append _ _))
      rw [hNode, if_neg (hAbove hTarget), if_neg (hAbove hSource)]
      exact hSound.parents names last (by rw [hEntry]; simp)
  · intro names other number hNames hOther
    have hApart :
        ∀ {rest names},
          fs.node? (old ++ rest) = some (.file number) →
          ¬ old <+: names →
            fs.node? names ≠ some (.file number) := by
      intro rest names hFirst hAway hSecond
      rw [← hSound.distinct _ _ _ hFirst hSecond] at hAway
      exact hAway (List.prefix_append _ _)
    rcases hCases hNames with
      ⟨rest, rfl, hFirst⟩ | ⟨_, hAway, hFirst⟩
    · rcases hCases hOther with
        ⟨further, rfl, hSecond⟩ | ⟨_, hAway, hSecond⟩
      · have hSame := hSound.distinct _ _ _ hFirst hSecond
        rw [List.append_cancel_left hSame]
      · exact absurd hSecond (hApart hFirst hAway)
    · rcases hCases hOther with
        ⟨further, rfl, hSecond⟩ | ⟨_, _, hSecond⟩
      · exact absurd hFirst (hApart hSecond hAway)
      · exact hSound.distinct _ _ _ hFirst hSecond
  · intro names number hFile
    rcases hCases hFile with ⟨_, _, hOld⟩ | ⟨_, _, hOld⟩
    · exact hSound.used _ number hOld
    · exact hSound.used _ number hOld

theorem Sound.moved_of_place?
    (hSound : fs.Sound)
    {text : String}
    {old : List String}
    {new : Place}
    (hPlace : fs.place? text = some new)
    (hOld : fs.node? old ≠ none)
    (hAway : ¬ old <+: new.names)
    (hBelow :
      ∀ rest, rest ≠ [] → fs.node? (new.names ++ rest) = none) :
    (fs.moved old new.names).Sound := by
  have hSome : new.names ≠ [] := by
    intro hNil
    rw [hNil, List.prefix_nil] at hAway
    rw [hNil] at hBelow
    exact hOld (hBelow old hAway)
  rcases hSound.parent_of_place? hPlace hSome with
    ⟨parent, name, hNames, hParent⟩
  rw [hNames] at hAway hBelow ⊢
  exact hSound.moved hAway hParent hBelow

/- An empty directory has nothing below its names. -/
theorem node?_below_of_hasEntries
    {names rest : List String}
    (hEmpty : fs.hasEntries names = false)
    (hRest : rest ≠ []) :
    fs.node? (names ++ rest) = none := by
  cases hNode : fs.node? (names ++ rest) with
  | none => rfl
  | some node =>
    rw [node?_of_ne_nil (by simp [hRest])] at hNode
    have hMem := Table.mem_of_find? hNode
    have hKey : names ++ rest ∈ fs.nodes.keys :=
      List.mem_map_of_mem hMem
    have hBelow :=
      List.any_eq_false.mp hEmpty (names ++ rest) hKey
    simp [List.length_pos_iff, hRest] at hBelow

/- What the names of a renaming must be like. -/
structure Renames
    (fs : FileSystem)
    (source target : String)
    (old new : Place) : Prop where
  source : fs.place? source = some old
  target : fs.place? target = some new
  node : fs.node? old.names ≠ none
  differ : old.names ≠ new.names
  directory :
    fs.node? old.names = some .directory →
      ¬ old.names <+: new.names ∧
        fs.hasEntries new.names = false
  file :
    fs.node? old.names ≠ some .directory →
      fs.node? new.names ≠ some .directory

/- A renaming changes nothing, or it moves an entry. -/
theorem final_rename_cases
    (fs : FileSystem)
    (source target : String) :
    (FileSystem.rename source target).final fs = fs.counted ∨
    ∃ old new,
      fs.counted.Renames source target old new ∧
      (FileSystem.rename source target).final fs =
        fs.counted.moved old.names new.names := by
  unfold Step.final FileSystem.rename
  rcases attempt_bind_cases fs _ with
    ⟨kind, _, hPerform⟩ | hPerform
  · left
    rw [hPerform]
  rw [hPerform]
  rcases locate_cases fs.counted source with
    ⟨old, hSource, hOld⟩ | ⟨kind, hSource, _⟩
  · rw [Step.perform_bind_of_ok hSource]
    rcases locate_cases fs.counted target with
      ⟨new, hTarget, hNew⟩ | ⟨kind, hTarget, _⟩
    · rw [Step.perform_bind_of_ok hTarget,
        Step.perform_bind_of_ok (Step.perform_get _)]
      split
      · left; rfl
      · left; rfl
      · left; rfl
      · rename_i node hNode hFile hDirectory
        split
        · left; rfl
        rename_i hDiffer
        have hRenames
            (hBelow :
              node = .directory →
                ¬ old.names <+: new.names ∧
                  fs.counted.hasEntries new.names = false) :
            fs.counted.Renames source target old new :=
          { source := hOld
            target := hNew
            node := by simp [hNode]
            differ := hDiffer
            directory := by simpa [hNode] using hBelow
            file := by
              intro hOther hTaken
              cases node with
              | directory => exact hOther hNode
              | file number => exact hFile number hTaken rfl }
        dsimp only
        split
        · split
          · left; rfl
          rename_i hPrefix
          split
          · left; rfl
          rename_i hEntries
          right
          refine ⟨old, new, hRenames fun _ => ⟨?_, ?_⟩, rfl⟩
          · rwa [← List.isPrefixOf_iff_prefix]
          · exact Bool.eq_false_iff.mpr hEntries
        · rename_i hKind
          split
          · left; rfl
          right
          exact
            ⟨old, new, hRenames fun hSame => absurd hSame hKind, rfl⟩
    · left
      rw [Step.perform_bind_of_error hTarget]
  · left
    rw [Step.perform_bind_of_error hSource]

theorem Sound.rename
    (hSound : fs.Sound)
    (source target : String) :
    ((FileSystem.rename source target).final fs).Sound := by
  have hCounted := sound_counted hSound
  rcases final_rename_cases fs source target with
    hFinal | ⟨old, new, hRenames, hFinal⟩
  · rw [hFinal]
    exact hCounted
  · rw [hFinal]
    by_cases hOld :
        fs.counted.node? old.names = some .directory
    · rcases hRenames.directory hOld with ⟨hAway, hEmpty⟩
      exact
        hCounted.moved_of_place? hRenames.target hRenames.node
          hAway fun _ hRest =>
            node?_below_of_hasEntries hEmpty hRest
    · have hAway :=
        hCounted.place_not_below hRenames.target hOld
          hRenames.differ
      have hNew := hRenames.file hOld
      exact
        hCounted.moved_of_place? hRenames.target hRenames.node
          hAway fun _ hRest => hCounted.node?_below hNew hRest

------------------------------------------------------------
-- Building
------------------------------------------------------------

/- Trees that operations build, whatever fails on the way. -/
inductive Built : FileSystem → Prop where
  | empty : Built .empty
  | rooted : Built .rooted
  | failing
      {fs : FileSystem}
      (hBuilt : Built fs)
      (faults : Nat → Option IoKind) :
      Built { fs with faults := faults }
  | createFile
      {fs : FileSystem}
      (hBuilt : Built fs)
      (text : String) :
      Built ((FileSystem.createFile text).final fs)
  | removeFile
      {fs : FileSystem}
      (hBuilt : Built fs)
      (text : String) :
      Built ((FileSystem.removeFile text).final fs)
  | makeDirectory
      {fs : FileSystem}
      (hBuilt : Built fs)
      (text : String) :
      Built ((FileSystem.makeDirectory text).final fs)
  | rename
      {fs : FileSystem}
      (hBuilt : Built fs)
      (source target : String) :
      Built ((FileSystem.rename source target).final fs)
  | writeAt
      {fs : FileSystem}
      (hBuilt : Built fs)
      (number position : Nat)
      (bs : Bytes) :
      Built ((FileSystem.writeAt number position bs).final fs)

/- A tree that operations have built is sound. -/
theorem Built.sound
    (hBuilt : Built fs) :
    fs.Sound := by
  induction hBuilt with
  | empty => exact sound_empty
  | rooted => exact sound_rooted
  | failing _ faults ih =>
    exact ih.congr (node?_congr rfl) (Nat.le_refl _)
  | createFile _ text ih => exact ih.createFile text
  | removeFile _ text ih => exact ih.removeFile text
  | makeDirectory _ text ih => exact ih.makeDirectory text
  | rename _ source target ih => exact ih.rename source target
  | writeAt _ number position bs ih =>
    exact ih.writeAt number position bs

theorem Built.putFile
    (hBuilt : Built fs)
    (text : String)
    (bs : Bytes) :
    Built ((FileSystem.putFile text bs).final fs) := by
  have hCreated := hBuilt.createFile text
  unfold Step.final FileSystem.putFile at *
  rcases hCreate : (FileSystem.createFile text).perform fs with
    ⟨e | number, created⟩
  · rw [Step.perform_bind_of_error hCreate]
    rwa [hCreate] at hCreated
  · rw [Step.perform_bind_of_ok hCreate]
    rw [hCreate] at hCreated
    exact hCreated.writeAt number 0 bs

end FileSystem

end SplitStream
