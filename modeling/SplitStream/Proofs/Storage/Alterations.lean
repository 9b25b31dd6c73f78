import SplitStream.Proofs.Storage.Receivers
import SplitStream.Proofs.Storage.Soundness

/-
  What operations leave as it was. An operation alters the
  files of some names; every file of another name keeps its
  name and its bytes, and directories stay where they are.

  Main declarations:
    * `FileSystem.Counts`
    * `FileSystem.Fills`
    * `FileSystem.Alters`
    * `FileSystem.Alters.hasFile`
    * `FileSystem.Fills.alters`
    * `FileSystem.Spares`
    * `OutputStream.Created.alters`
    * `OutputStream.Created.spares`
-/

------------------------------------------------------------
-- Counted Operations
------------------------------------------------------------

namespace SplitStream

namespace FileSystem

variable {fs fs' last : FileSystem}

/- Operations have been counted, and nothing else is changed. -/
def Counts
    (fs fs' : FileSystem) : Prop :=
  ∃ step, fs' = { fs with step := step }

theorem counts_counted
    (fs : FileSystem) :
    Counts fs fs.counted :=
  ⟨fs.step + 1, rfl⟩

theorem Counts.trans
    (hFirst : Counts fs fs')
    (hLast : Counts fs' last) :
    Counts fs last := by
  rcases hFirst with ⟨_, rfl⟩
  rcases hLast with ⟨step, rfl⟩
  exact ⟨step, rfl⟩

theorem Counts.intact
    (h : Counts fs fs') :
    Intact fs fs' := by
  rcases h with ⟨step, rfl⟩
  exact ⟨rfl, rfl⟩

theorem Counts.sameNames
    (h : Counts fs fs') :
    SameNames fs fs' := by
  rcases h with ⟨step, rfl⟩
  exact ⟨rfl, rfl⟩

theorem Counts.calm
    (h : Counts fs fs')
    (hCalm : fs.Calm) :
    fs'.Calm := by
  rcases h with ⟨step, rfl⟩
  exact hCalm

theorem SameNames.isFile
    (hSame : SameNames fs fs')
    {text : String}
    {number : Nat}
    (hFile : fs.IsFile text number) :
    fs'.IsFile text number := by
  rcases hFile with ⟨place, hPlace, hName, hNode⟩
  exact
    ⟨place, (hSame.place?_eq text).trans hPlace, hName,
      (hSame.node?_eq place.names).trans hNode⟩

theorem Counts.hasFile
    (h : Counts fs fs')
    {text : String}
    {bytes : Bytes}
    (hHas : fs.HasFile text bytes) :
    fs'.HasFile text bytes := by
  rcases hHas with ⟨number, hFile, hBytes⟩
  exact
    ⟨number, h.sameNames.isFile hFile,
      (h.intact.bytesOf_eq number).trans hBytes⟩

------------------------------------------------------------
-- Filled Files
------------------------------------------------------------

/- A file has none of the given names. -/
def Elsewhere
    (fs : FileSystem)
    (names : List String)
    (number : Nat) : Prop :=
  ∀ name ∈ names, fs.nodeAt? name ≠ some (.file number)

/- Only bytes of the files of some names have changed. -/
structure Fills
    (names : List String)
    (fs fs' : FileSystem) : Prop where
  nodes : fs'.nodes = fs.nodes
  next : fs'.next = fs.next
  faults : fs'.faults = fs.faults
  bytes :
    ∀ number,
      fs.Elsewhere names number →
        fs'.bytesOf number = fs.bytesOf number

variable {names : List String}

theorem Fills.refl
    (names : List String)
    (fs : FileSystem) :
    Fills names fs fs where
  nodes := rfl
  next := rfl
  faults := rfl
  bytes := fun _ _ => rfl

theorem Fills.sameNames
    (h : Fills names fs fs') :
    SameNames fs fs' :=
  ⟨h.nodes, h.next⟩

theorem SameNames.elsewhere
    (hSame : SameNames fs fs')
    {number : Nat}
    (h : fs.Elsewhere names number) :
    fs'.Elsewhere names number := by
  intro name hName
  rw [hSame.nodeAt?_eq]
  exact h name hName

theorem Fills.trans
    (hFirst : Fills names fs fs')
    (hLast : Fills names fs' last) :
    Fills names fs last where
  nodes := hLast.nodes.trans hFirst.nodes
  next := hLast.next.trans hFirst.next
  faults := hLast.faults.trans hFirst.faults
  bytes := fun number hElsewhere =>
    (hLast.bytes number
        (hFirst.sameNames.elsewhere hElsewhere)).trans
      (hFirst.bytes number hElsewhere)

theorem Fills.mono
    {more : List String}
    (h : Fills names fs fs')
    (hMore : ∀ name ∈ names, name ∈ more) :
    Fills more fs fs' :=
  { h with
    bytes := fun number hElsewhere =>
      h.bytes number fun name hName =>
        hElsewhere name (hMore name hName) }

theorem Counts.fills
    (h : Counts fs fs')
    (names : List String) :
    Fills names fs fs' := by
  rcases h with ⟨step, rfl⟩
  exact ⟨rfl, rfl, rfl, fun _ _ => rfl⟩

/- What touches the file of a name fills it. -/
theorem fills_of_touches
    {stream : OutputStream}
    {file : Nat}
    {name : String}
    (hTouches : stream.Touches file fs fs')
    (hFile : fs.IsFile name file) :
    Fills [name] fs fs' where
  nodes := hTouches.nodes
  next := hTouches.next
  faults := hTouches.faults
  bytes := by
    intro number hElsewhere
    apply hTouches.bytes
    rintro rfl
    exact hElsewhere name List.mem_cons_self hFile.nodeAt?_eq

------------------------------------------------------------
-- Altered Names
------------------------------------------------------------

/- A text stands for none of the places of others. -/
def Avoids
    (fs : FileSystem)
    (text : String)
    (others : List String) : Prop :=
  ∀ other ∈ others, fs.Apart text other

instance
    (fs : FileSystem)
    (text : String)
    (others : List String) : Decidable (fs.Avoids text others) :=
  inferInstanceAs
    (Decidable (∀ other ∈ others, fs.Apart text other))

theorem SameDirectories.avoids
    (hSame : SameDirectories fs fs')
    {text : String}
    {others : List String}
    (h : fs.Avoids text others) :
    fs'.Avoids text others :=
  fun other hOther => hSame.apart (h other hOther)

/-
  Only files with some of the given names have changed, or
  have come or gone.
-/
structure Alters
    (names : List String)
    (fs fs' : FileSystem) : Prop where
  directories : SameDirectories fs fs'
  faults : fs'.faults = fs.faults
  sound : fs.Sound → fs'.Sound
  nodes :
    ∀ text,
      fs.Avoids text names →
        fs'.nodeAt? text = fs.nodeAt? text
  bytes :
    ∀ text number,
      fs.Avoids text names →
      fs.nodeAt? text = some (.file number) →
        fs'.bytesOf number = fs.bytesOf number

variable {text : String} {bytes : Bytes}

theorem Alters.trans
    (hFirst : Alters names fs fs')
    (hLast : Alters names fs' last) :
    Alters names fs last where
  directories := hFirst.directories.trans hLast.directories
  faults := hLast.faults.trans hFirst.faults
  sound := fun hSound => hLast.sound (hFirst.sound hSound)
  nodes := by
    intro text hAvoids
    have hAvoids' := hFirst.directories.avoids hAvoids
    exact (hLast.nodes text hAvoids').trans (hFirst.nodes text hAvoids)
  bytes := by
    intro text number hAvoids hNode
    have hAvoids' := hFirst.directories.avoids hAvoids
    have hNode' := (hFirst.nodes text hAvoids).trans hNode
    exact
      (hLast.bytes text number hAvoids' hNode').trans
        (hFirst.bytes text number hAvoids hNode)

theorem Alters.mono
    {more : List String}
    (h : Alters names fs fs')
    (hMore : ∀ name ∈ names, name ∈ more) :
    Alters more fs fs' :=
  { h with
    nodes := fun text hAvoids =>
      h.nodes text fun name hName =>
        hAvoids name (hMore name hName)
    bytes := fun text number hAvoids =>
      h.bytes text number fun name hName =>
        hAvoids name (hMore name hName) }

theorem Alters.calm
    (h : Alters names fs fs')
    (hCalm : fs.Calm) :
    fs'.Calm := by
  intro step
  rw [h.faults]
  exact hCalm step

/- A file with another name is as it was. -/
theorem Alters.hasFile
    (h : Alters names fs fs')
    (hHas : fs.HasFile text bytes)
    (hAvoids : fs.Avoids text names) :
    fs'.HasFile text bytes := by
  rcases hHas with ⟨number, hFile, hBytes⟩
  have hNode := hFile.nodeAt?_eq
  have hFile' : fs'.IsFile text number :=
    (h.directories.admits hFile.admits).isFile
      ((h.nodes text hAvoids).trans hNode)
  exact
    ⟨number, hFile',
      (h.bytes text number hAvoids hNode).trans hBytes⟩

/- A file of another name has none of some names. -/
theorem Sound.elsewhere
    (hSound : fs.Sound)
    {number : Nat}
    (hNode : fs.nodeAt? text = some (.file number))
    (hAvoids : fs.Avoids text names) :
    fs.Elsewhere names number := by
  intro name hName hSame
  rcases place?_of_nodeAt? hNode with ⟨own, hOwn, hEntry⟩
  rcases place?_of_nodeAt? hSame with ⟨other, hOther, hEntry'⟩
  exact
    hAvoids name hName own hOwn other hOther
      (hSound.distinct _ _ number hEntry hEntry')

/- Filling the files of some names alters these only. -/
theorem Fills.alters
    (h : Fills names fs fs')
    (hSound : fs.Sound) :
    Alters names fs fs' where
  directories := h.sameNames.sameDirectories
  faults := h.faults
  sound := h.sameNames.sound
  nodes := fun text _ => h.sameNames.nodeAt?_eq text
  bytes := fun _ number hAvoids hNode =>
    h.bytes number (hSound.elsewhere hNode hAvoids)

theorem Counts.alters
    (h : Counts fs fs')
    (names : List String) :
    Alters names fs fs' where
  directories := h.sameNames.sameDirectories
  faults := by
    rcases h with ⟨step, rfl⟩
    rfl
  sound := h.sameNames.sound
  nodes := fun text _ => h.intact.nodeAt?_eq text
  bytes := fun _ number _ _ => h.intact.bytesOf_eq number

------------------------------------------------------------
-- Spared Files
------------------------------------------------------------

/-
  Files that have none of some names keep their bytes, even
  if they have lost the name they had.
-/
def Spares
    (names : List String)
    (fs fs' : FileSystem) : Prop :=
  ∀ number,
    number < fs.next →
    fs.Elsewhere names number →
      number < fs'.next ∧
      fs'.Elsewhere names number ∧
      fs'.bytesOf number = fs.bytesOf number

theorem Spares.trans
    (hFirst : Spares names fs fs')
    (hLast : Spares names fs' last) :
    Spares names fs last := by
  intro number hUsed hElsewhere
  rcases hFirst number hUsed hElsewhere with
    ⟨hUsed', hElsewhere', hBytes⟩
  rcases hLast number hUsed' hElsewhere' with
    ⟨hUsed'', hElsewhere'', hBytes'⟩
  exact ⟨hUsed'', hElsewhere'', hBytes'.trans hBytes⟩

theorem Fills.spares
    (h : Fills names fs fs') :
    Spares names fs fs' := by
  intro number hUsed hElsewhere
  refine
    ⟨?_, h.sameNames.elsewhere hElsewhere,
      h.bytes number hElsewhere⟩
  rw [h.next]
  exact hUsed

/- Losing a name is no harm to a file. -/
theorem Thins.spares
    (h : Thins fs fs')
    (names : List String) :
    Spares names fs fs' := by
  intro number hUsed hElsewhere
  refine ⟨?_, ?_, ?_⟩
  · rw [h.next]
    exact hUsed
  · intro name hName hSame
    rcases place?_of_nodeAt? hSame with ⟨place, hPlace, hNode⟩
    rw [h.sameDirectories.place?_eq] at hPlace
    apply hElsewhere name hName
    rw [nodeAt?_of_place? hPlace]
    rcases h.nodes place.names with hKept | ⟨hNone, _⟩
    · rw [← hKept]
      exact hNode
    · rw [hNone] at hNode
      cases hNode
  · unfold bytesOf
    rw [h.files]

end FileSystem

------------------------------------------------------------
-- Created Files
------------------------------------------------------------

namespace OutputStream

variable
  {stream : OutputStream} {file : Nat} {fs fs' : FileSystem}
  {place : FileSystem.Place} {text : String}

/- A file that has been created has its name. -/
theorem Created.isFile
    (h : Created stream file place.names fs fs')
    (hPlace : fs.place? text = some place)
    (hFile : place.isDirectory = false) :
    fs'.IsFile text file :=
  ⟨place,
    (h.changes.sameDirectories.place?_eq text).trans hPlace, hFile,
    h.entry⟩

/- It has no bytes, and neither has its stream. -/
theorem Created.holds
    (h : Created stream file place.names fs fs') :
    stream.Holds file [] fs' := by
  refine ⟨.empty, ?_, ?_⟩
  · rw [h.empty]
    exact h.state
  · rw [h.empty, Tape.toBytes_empty, List.append_nil]

/- Creating a file alters none but that of the name. -/
theorem Created.alters
    (h : Created stream file place.names fs fs')
    (hPlace : fs.place? text = some place) :
    fs.Alters [text] fs' where
  directories := h.changes.sameDirectories
  faults := h.faults
  sound := fun _ => h.sound
  nodes := by
    intro other hAvoids
    apply h.changes.nodeAt?_eq
    intro further hFurther
    exact
      hAvoids text List.mem_cons_self further hFurther place hPlace
  bytes := by
    intro other number hAvoids hNode
    apply h.bytes
    rintro rfl
    rcases FileSystem.place?_of_nodeAt? hNode with
      ⟨further, hFurther, hEntry⟩
    have hDiffers : further.names ≠ place.names :=
      hAvoids text List.mem_cons_self further hFurther place hPlace
    have hEntry' :=
      (h.changes.others further.names hDiffers).trans hEntry
    exact
      hDiffers (h.sound.distinct _ _ number hEntry' h.entry)

/- Creating a file with one of some names spares all others. -/
theorem Created.spares
    (h : Created stream file place.names fs fs')
    (hPlace : fs.place? text = some place)
    {names : List String}
    (hText : text ∈ names) :
    fs.Spares names fs' := by
  intro number hUsed hElsewhere
  have hOther : number ≠ file := by
    rintro rfl
    rcases h.origin with hNode | hFresh
    · apply hElsewhere text hText
      rw [FileSystem.nodeAt?_of_place? hPlace]
      exact hNode
    · exact absurd hUsed (Nat.not_lt.mpr hFresh)
  refine ⟨?_, ?_, h.bytes number hOther⟩
  · exact
      Nat.lt_trans (Nat.lt_of_lt_of_le hUsed h.unused) h.used
  · intro name hName hSame
    rcases FileSystem.place?_of_nodeAt? hSame with
      ⟨further, hFurther, hEntry⟩
    rw [h.changes.sameDirectories.place?_eq] at hFurther
    by_cases hPlaces : further.names = place.names
    · rw [hPlaces, h.entry] at hEntry
      cases hEntry
      exact hOther rfl
    · rw [h.changes.others further.names hPlaces] at hEntry
      apply hElsewhere name hName
      rw [FileSystem.nodeAt?_of_place? hFurther]
      exact hEntry

end OutputStream

end SplitStream
