import SplitStream.Storage.FileSystem

/-
  The places that texts stand for. A text that stands for a
  file and the same text with a suffix stand for places in
  one directory. Where a text leads depends on nothing but
  the directories of a tree.

  Main declarations:
    * `Path.parse_append`
    * `FileSystem.place?`
    * `FileSystem.nodeAt?`
    * `FileSystem.Admits`
    * `FileSystem.IsFile`
    * `FileSystem.HasFile`
    * `FileSystem.SameDirectories.place?_eq`
    * `FileSystem.place?_append`
-/

------------------------------------------------------------
-- Texts
------------------------------------------------------------

namespace SplitStream

namespace Path

/- Without slashes, all characters make up one piece. -/
theorem pieces_of_plain
    {cs : List Char}
    (hPlain : '/' ∉ cs) :
    pieces cs = [cs] := by
  induction cs with
  | nil => rfl
  | cons c rest ih =>
    have hRest : '/' ∉ rest := by
      intro hMem
      exact hPlain (List.mem_cons_of_mem c hMem)
    have hFirst : c ≠ '/' := by
      intro hEq
      exact hPlain (hEq ▸ List.mem_cons_self)
    rw [pieces, if_neg hFirst, ih hRest]

/- Characters behind a text change its last piece only. -/
theorem pieces_append
    (cs : List Char) :
    ∃ front last,
      pieces cs = front ++ [last] ∧
      ∀ suffix,
        '/' ∉ suffix →
          pieces (cs ++ suffix) = front ++ [last ++ suffix] := by
  induction cs with
  | nil =>
    refine ⟨[], [], rfl, ?_⟩
    intro suffix hSuffix
    exact pieces_of_plain hSuffix
  | cons c cs ih =>
    rcases ih with ⟨front, last, hPieces, hMore⟩
    by_cases hSlash : c = '/'
    · refine ⟨[] :: front, last, ?_, ?_⟩
      · rw [pieces, if_pos hSlash, hPieces]
        rfl
      · intro suffix hSuffix
        rw [List.cons_append, pieces, if_pos hSlash,
          hMore suffix hSuffix]
        rfl
    · cases front with
      | nil =>
        refine ⟨[], c :: last, ?_, ?_⟩
        · rw [pieces, if_neg hSlash, hPieces]
          rfl
        · intro suffix hSuffix
          rw [List.cons_append, pieces, if_neg hSlash,
            hMore suffix hSuffix]
          rfl
      | cons piece front =>
        refine ⟨(c :: piece) :: front, last, ?_, ?_⟩
        · rw [pieces, if_neg hSlash, hPieces]
          rfl
        · intro suffix hSuffix
          rw [List.cons_append, pieces, if_neg hSlash,
            hMore suffix hSuffix]
          rfl

/-
  A suffix that makes a further name of each name: it has no
  slashes and no zeros, and cannot be taken for dots.
-/
structure Suffix
    (suffix : String) : Prop where
  slash : '/' ∉ suffix.toList
  zero : '\x00' ∉ suffix.toList
  long : 2 ≤ suffix.toList.length

/- A name with a suffix is no dots. -/
theorem isDots_append
    {name suffix : String}
    (hName : name ≠ "")
    (hSuffix : Suffix suffix) :
    isDots (name ++ suffix) = false := by
  have hLong : 3 ≤ (name ++ suffix).toList.length := by
    have hSome : name.toList ≠ [] :=
      mt String.toList_eq_nil_iff.mp hName
    have hFirst := List.length_pos_iff.mpr hSome
    have hRest := hSuffix.long
    rw [String.toList_append, List.length_append]
    omega
  unfold isDots
  rw [Bool.or_eq_false_iff]
  constructor
  · apply decide_eq_false
    intro hEq
    rw [hEq] at hLong
    contradiction
  · apply decide_eq_false
    intro hEq
    rw [hEq] at hLong
    contradiction

/- A text can be a path: it is no empty, marred or long one. -/
structure Readable
    (text : String) : Prop where
  zero : '\x00' ∉ text.toList
  some : text ≠ ""
  size : text.utf8ByteSize ≤ maxText

/- The path that the pieces of a text make. -/
def ofPieces
    (fromRoot : Bool)
    (pieces : List String) : Path where
  fromRoot := fromRoot
  steps := pieces.filter fun piece => piece ≠ ""
  isDirectory :=
    match pieces.getLast? with
    | none => true
    | some piece => piece = "" || isDots piece

theorem parse_of_readable
    {text : String}
    (hText : Readable text) :
    parse text =
      .ok
        (ofPieces (text.toList.head? = some '/')
          ((pieces text.toList).map String.ofList)) := by
  have hZero : ¬ text.toList.contains '\x00' = true := by
    simpa using hText.zero
  unfold parse
  rw [if_neg hZero, if_neg hText.some,
    if_neg (Nat.not_lt.mpr hText.size)]
  rfl

theorem readable_of_parse
    {text : String}
    {path : Path}
    (hParse : parse text = .ok path) :
    Readable text := by
  unfold parse at hParse
  split at hParse
  · contradiction
  · rename_i hZero
    split at hParse
    · contradiction
    · rename_i hSome
      split at hParse
      · contradiction
      · rename_i hSize
        exact
          { zero := by simpa using hZero
            some := hSome
            size := Nat.not_lt.mp hSize }

/- The pieces of a file end in its name. -/
theorem ofPieces_of_file
    {fromRoot : Bool}
    {front : List String}
    {name : String}
    (hFile :
      (ofPieces fromRoot (front ++ [name])).isDirectory =
        false) :
    (ofPieces fromRoot (front ++ [name])).steps =
        (front.filter fun piece => piece ≠ "") ++ [name] ∧
      name ≠ "" ∧ isDots name = false := by
  simp only [ofPieces, List.getLast?_append, List.getLast?_singleton,
    Option.some_or, Bool.or_eq_false_iff, decide_eq_false_iff_not]
    at hFile
  refine ⟨?_, hFile⟩
  simp [ofPieces, List.filter_append, hFile.1]

/-
  A text that stands for a file keeps its directory when a
  suffix is put behind it, unless it becomes too long.
-/
theorem parse_append
    {text : String}
    {path : Path}
    (hParse : parse text = .ok path)
    (hFile : path.isDirectory = false) :
    ∃ front name,
      path.steps = front ++ [name] ∧
      name ≠ "" ∧
      isDots name = false ∧
      ∀ suffix,
        Suffix suffix →
          parse (text ++ suffix) = .error .invalidName ∨
          parse (text ++ suffix) =
            .ok
              { fromRoot := path.fromRoot
                steps := front ++ [name ++ suffix]
                isDirectory := false } := by
  have hText := readable_of_parse hParse
  rw [parse_of_readable hText] at hParse
  cases hParse
  rcases pieces_append text.toList with
    ⟨front, last, hPieces, hMore⟩
  rw [hPieces, List.map_append, List.map_singleton] at hFile ⊢
  rcases ofPieces_of_file hFile with ⟨hSteps, hName, hDots⟩
  refine ⟨_, _, hSteps, hName, hDots, ?_⟩
  intro suffix hSuffix
  have hZero : '\x00' ∉ (text ++ suffix).toList := by
    rw [String.toList_append, List.mem_append]
    exact not_or.mpr ⟨hText.zero, hSuffix.zero⟩
  rcases List.exists_cons_of_ne_nil
    (mt String.toList_eq_nil_iff.mp hText.some) with
    ⟨c, rest, hChars⟩
  have hSome : text ++ suffix ≠ "" := by
    intro hNone
    have hList := congrArg String.toList hNone
    rw [String.toList_append, hChars] at hList
    contradiction
  by_cases hSize : (text ++ suffix).utf8ByteSize ≤ maxText
  · right
    have hHead :
        (text ++ suffix).toList.head? = text.toList.head? := by
      rw [String.toList_append, hChars]
      rfl
    have hFurther :
        String.ofList (last ++ suffix.toList) =
          String.ofList last ++ suffix := by
      rw [String.ofList_append, String.ofList_toList]
    have hLong : String.ofList last ++ suffix ≠ "" := by
      intro hNone
      have hList := congrArg String.toList hNone
      rw [String.toList_append] at hList
      apply hName
      exact
        String.toList_eq_nil_iff.mp
          (List.append_eq_nil_iff.mp hList).1
    have hNoDots := isDots_append hName hSuffix
    rw [parse_of_readable ⟨hZero, hSome, hSize⟩, hHead,
      String.toList_append, hMore _ hSuffix.slash]
    simp [ofPieces, hFurther, hLong, hNoDots]
  · left
    have hContains :
        ¬ (text ++ suffix).toList.contains '\x00' = true := by
      simpa using hZero
    unfold parse
    rw [if_neg hContains, if_neg hSome,
      if_pos (Nat.not_le.mp hSize)]

end Path

------------------------------------------------------------
-- Places
------------------------------------------------------------

namespace FileSystem

variable {fs fs' : FileSystem} {text : String} {place : Place}

/- The place that a text stands for, if it stands for one. -/
def place?
    (fs : FileSystem)
    (text : String) : Option Place :=
  ((locate text).perform fs).1.toOption

/- The entry that a text stands for, if there is one. -/
def nodeAt?
    (fs : FileSystem)
    (text : String) : Option Node :=
  (fs.place? text).bind fun place => fs.node? place.names

theorem nodeAt?_of_place?
    {fs : FileSystem}
    {text : String}
    {place : Place}
    (hPlace : fs.place? text = some place) :
    fs.nodeAt? text = fs.node? place.names := by
  rw [nodeAt?, hPlace]
  rfl

theorem place?_of_nodeAt?
    {fs : FileSystem}
    {text : String}
    {node : Node}
    (hNode : fs.nodeAt? text = some node) :
    ∃ place,
      fs.place? text = some place ∧
      fs.node? place.names = some node :=
  Option.bind_eq_some_iff.mp hNode

/-
  A text can be the name of a file: no directory stands at
  its place.
-/
def Admits
    (fs : FileSystem)
    (text : String) : Prop :=
  ∃ place,
    fs.place? text = some place ∧
    place.isDirectory = false ∧
    fs.node? place.names ≠ some .directory

instance
    (fs : FileSystem)
    (text : String) : Decidable (fs.Admits text) :=
  inferInstanceAs
    (Decidable
      (∃ place ∈ fs.place? text,
        place.isDirectory = false ∧
        fs.node? place.names ≠ some .directory))

/- A text is the name of a file. -/
def IsFile
    (fs : FileSystem)
    (text : String)
    (number : Nat) : Prop :=
  ∃ place,
    fs.place? text = some place ∧
    place.isDirectory = false ∧
    fs.node? place.names = some (.file number)

instance
    (fs : FileSystem)
    (text : String)
    (number : Nat) : Decidable (fs.IsFile text number) :=
  inferInstanceAs
    (Decidable
      (∃ place ∈ fs.place? text,
        place.isDirectory = false ∧
        fs.node? place.names = some (.file number)))

theorem IsFile.admits
    {number : Nat}
    (h : fs.IsFile text number) :
    fs.Admits text := by
  rcases h with ⟨place, hPlace, hFile, hNode⟩
  exact ⟨place, hPlace, hFile, by simp [hNode]⟩

theorem IsFile.nodeAt?_eq
    {number : Nat}
    (h : fs.IsFile text number) :
    fs.nodeAt? text = some (.file number) := by
  rcases h with ⟨place, hPlace, _, hNode⟩
  exact (nodeAt?_of_place? hPlace).trans hNode

theorem Admits.isFile
    {number : Nat}
    (h : fs.Admits text)
    (hNode : fs.nodeAt? text = some (.file number)) :
    fs.IsFile text number := by
  rcases h with ⟨place, hPlace, hFile, _⟩
  rw [nodeAt?_of_place? hPlace] at hNode
  exact ⟨place, hPlace, hFile, hNode⟩

/- A text is the name of a file with some bytes. -/
def HasFile
    (fs : FileSystem)
    (text : String)
    (bytes : Bytes) : Prop :=
  ∃ number,
    fs.IsFile text number ∧ fs.bytesOf number = bytes

theorem HasFile.admits
    {bytes : Bytes}
    (h : fs.HasFile text bytes) :
    fs.Admits text := by
  rcases h with ⟨number, hFile, _⟩
  exact hFile.admits

/- There is no more than one file with a name. -/
theorem HasFile.bytes_eq
    {bytes more : Bytes}
    (h : fs.HasFile text bytes)
    (hMore : fs.HasFile text more) :
    bytes = more := by
  rcases h with ⟨number, hFile, rfl⟩
  rcases hMore with ⟨other, hOther, rfl⟩
  have hSame := hFile.nodeAt?_eq
  rw [hOther.nodeAt?_eq] at hSame
  cases hSame
  rfl

/- The place of a text, or the reason for which it has none. -/
def placeOf
    (fs : FileSystem)
    (text : String) : Except IoKind Place := do
  let path ← Path.parse text
  let names ← fs.follow (← fs.begin path) path.steps
  return { names := names, isDirectory := path.isDirectory }

theorem perform_locate
    (fs : FileSystem)
    (text : String) :
    (locate text).perform fs =
      ((fs.placeOf text).mapError .io, fs) := by
  unfold locate
  rw [Step.perform_bind_of_ok (Step.perform_get fs),
    Step.perform_ofExcept]
  rfl

/- A text is located without changing the tree. -/
theorem locate_cases
    (fs : FileSystem)
    (text : String) :
    (∃ place,
      (locate text).perform fs = (.ok place, fs) ∧
      fs.place? text = some place) ∨
    ∃ kind,
      (locate text).perform fs = (.error (.io kind), fs) ∧
      fs.place? text = none := by
  unfold place?
  rw [perform_locate]
  cases fs.placeOf text with
  | error kind =>
    right
    exact ⟨kind, rfl, rfl⟩
  | ok place =>
    left
    exact ⟨place, rfl, rfl⟩

/- The way from a text to its place. -/
theorem place?_eq_some_iff :
    fs.place? text = some place ↔
      ∃ path start names,
        Path.parse text = .ok path ∧
        fs.begin path = .ok start ∧
        fs.follow start path.steps = .ok names ∧
        place = ⟨names, path.isDirectory⟩ := by
  unfold place?
  rw [perform_locate]
  constructor
  · intro hPlace
    have hFound : fs.placeOf text = .ok place := by
      cases hResult : fs.placeOf text with
      | error kind =>
        rw [hResult] at hPlace
        cases hPlace
      | ok found =>
        rw [hResult] at hPlace
        cases hPlace
        rfl
    rcases ok_of_bind hFound with ⟨path, hPath, hAfterPath⟩
    rcases ok_of_bind hAfterPath with ⟨start, hStart, hAfterStart⟩
    rcases ok_of_bind hAfterStart with ⟨names, hNames, hRest⟩
    cases hRest
    exact ⟨path, start, names, hPath, hStart, hNames, rfl⟩
  · rintro ⟨path, start, names, hPath, hStart, hNames, rfl⟩
    unfold placeOf
    rw [hPath]
    simp only [bind, Except.bind, hStart, hNames]
    rfl

------------------------------------------------------------
-- Directories
------------------------------------------------------------

/- Two trees have the same directories. -/
def SameDirectories
    (fs fs' : FileSystem) : Prop :=
  ∀ names,
    fs.node? names = some .directory ↔
      fs'.node? names = some .directory

/- A way leads to the same place through the same directories. -/
theorem SameDirectories.follow
    (hSame : SameDirectories fs fs')
    {lastFirst steps names : List String}
    (hFollow : fs.follow lastFirst steps = .ok names) :
    fs'.follow lastFirst steps = .ok names := by
  induction steps generalizing lastFirst with
  | nil => exact hFollow
  | cons step rest ih =>
    unfold FileSystem.follow at hFollow ⊢
    dsimp only at hFollow ⊢
    by_cases hLong : Path.maxName < step.utf8ByteSize
    · rw [if_pos hLong] at hFollow
      contradiction
    rw [if_neg hLong] at hFollow ⊢
    by_cases hLast : rest.isEmpty = true
    · rw [if_pos hLast] at hFollow ⊢
      exact hFollow
    rw [if_neg hLast] at hFollow ⊢
    split at hFollow
    · rename_i hNode
      rw [(hSame _).mp hNode]
      exact ih hFollow
    · contradiction
    · contradiction

theorem SameDirectories.begin
    (hSame : SameDirectories fs fs')
    (path : Path) :
    fs'.begin path = fs.begin path := by
  unfold FileSystem.begin
  simp only [hSame [Path.root]]

theorem SameDirectories.symm
    (hSame : SameDirectories fs fs') :
    SameDirectories fs' fs := by
  intro names
  exact (hSame names).symm

theorem SameDirectories.trans
    {last : FileSystem}
    (hFirst : SameDirectories fs fs')
    (hLast : SameDirectories fs' last) :
    SameDirectories fs last := by
  intro names
  exact (hFirst names).trans (hLast names)

/- Places depend on nothing but the directories. -/
theorem SameDirectories.place?_eq
    (hSame : SameDirectories fs fs')
    (text : String) :
    fs'.place? text = fs.place? text := by
  have hOne :
      ∀ {left right : FileSystem} (place : Place),
        SameDirectories left right →
        left.place? text = some place →
          right.place? text = some place := by
    intro left right place hBoth hPlace
    rcases place?_eq_some_iff.mp hPlace with
      ⟨path, start, names, hPath, hStart, hNames, hEq⟩
    exact
      place?_eq_some_iff.mpr
        ⟨path, start, names, hPath,
          (hBoth.begin path).trans hStart, hBoth.follow hNames,
          hEq⟩
  cases hPlace : fs.place? text with
  | some place => exact hOne place hSame hPlace
  | none =>
    cases hOther : fs'.place? text with
    | none => rfl
    | some place =>
      rw [hOne place hSame.symm hOther] at hPlace
      contradiction

theorem SameDirectories.admits
    (hSame : SameDirectories fs fs')
    (h : fs.Admits text) :
    fs'.Admits text := by
  rcases h with ⟨place, hPlace, hFile, hNode⟩
  exact
    ⟨place, (hSame.place?_eq text).trans hPlace, hFile,
      mt (hSame place.names).mpr hNode⟩

/- The entry of a text is looked for at one place only. -/
theorem SameDirectories.nodeAt?_eq
    (hSame : SameDirectories fs fs')
    (hNode :
      ∀ place ∈ fs.place? text,
        fs'.node? place.names = fs.node? place.names) :
    fs'.nodeAt? text = fs.nodeAt? text := by
  unfold nodeAt?
  rw [hSame.place?_eq]
  cases hPlace : fs.place? text with
  | none => rfl
  | some place => exact hNode place hPlace

/- Trees with the same table have the same entries. -/
theorem node?_congr
    (hNodes : fs'.nodes = fs.nodes)
    (names : List String) :
    fs'.node? names = fs.node? names := by
  unfold node?
  rw [hNodes]

theorem nodeAt?_congr
    (hNodes : fs'.nodes = fs.nodes)
    (text : String) :
    fs'.nodeAt? text = fs.nodeAt? text := by
  apply SameDirectories.nodeAt?_eq
  · intro names
    rw [node?_congr hNodes]
  · intro place _
    exact node?_congr hNodes place.names

/- Trees with the same names and the same unused numbers. -/
structure SameNames
    (fs fs' : FileSystem) : Prop where
  nodes : fs'.nodes = fs.nodes
  next : fs'.next = fs.next

theorem SameNames.refl
    (fs : FileSystem) :
    SameNames fs fs where
  nodes := rfl
  next := rfl

theorem SameNames.trans
    {last : FileSystem}
    (hFirst : SameNames fs fs')
    (hLast : SameNames fs' last) :
    SameNames fs last where
  nodes := hLast.nodes.trans hFirst.nodes
  next := hLast.next.trans hFirst.next

theorem SameNames.node?_eq
    (hSame : SameNames fs fs')
    (names : List String) :
    fs'.node? names = fs.node? names :=
  node?_congr hSame.nodes names

theorem SameNames.sameDirectories
    (hSame : SameNames fs fs') :
    SameDirectories fs fs' := by
  intro names
  rw [hSame.node?_eq]

theorem SameNames.place?_eq
    (hSame : SameNames fs fs')
    (text : String) :
    fs'.place? text = fs.place? text :=
  hSame.sameDirectories.place?_eq text

theorem SameNames.nodeAt?_eq
    (hSame : SameNames fs fs')
    (text : String) :
    fs'.nodeAt? text = fs.nodeAt? text :=
  nodeAt?_congr hSame.nodes text

/- Neither a name nor a byte of a file has changed. -/
structure Intact
    (fs fs' : FileSystem) : Prop where
  nodes : fs'.nodes = fs.nodes
  files : fs'.files = fs.files

theorem Intact.refl
    (fs : FileSystem) :
    Intact fs fs where
  nodes := rfl
  files := rfl

theorem Intact.trans
    {last : FileSystem}
    (hFirst : Intact fs fs')
    (hLast : Intact fs' last) :
    Intact fs last where
  nodes := hLast.nodes.trans hFirst.nodes
  files := hLast.files.trans hFirst.files

theorem Intact.nodeAt?_eq
    (hIntact : Intact fs fs')
    (text : String) :
    fs'.nodeAt? text = fs.nodeAt? text :=
  nodeAt?_congr hIntact.nodes text

theorem Intact.bytesOf_eq
    (hIntact : Intact fs fs')
    (number : Nat) :
    fs'.bytesOf number = fs.bytesOf number := by
  unfold bytesOf
  rw [hIntact.files]

------------------------------------------------------------
-- Neighbours
------------------------------------------------------------

/- The last step of a way does not matter for its directory. -/
theorem follow_append
    {lastFirst front names : List String}
    {step : String}
    (hStart : fs.node? lastFirst.reverse = some .directory)
    (hFollow : fs.follow lastFirst (front ++ [step]) = .ok names) :
    ∃ parent,
      fs.node? parent.reverse = some .directory ∧
      names = (Path.descend parent step).reverse ∧
      ∀ other,
        fs.follow lastFirst (front ++ [other]) =
          if Path.maxName < other.utf8ByteSize then
            .error .invalidName
          else
            .ok (Path.descend parent other).reverse := by
  induction front generalizing lastFirst with
  | nil =>
    refine ⟨lastFirst, hStart, ?_, fun _ => rfl⟩
    rw [List.nil_append, FileSystem.follow] at hFollow
    split at hFollow
    · contradiction
    · cases hFollow
      rfl
  | cons next front ih =>
    rw [List.cons_append, FileSystem.follow] at hFollow
    split at hFollow
    · contradiction
    · rename_i hLong
      split at hFollow
      · rename_i hEmpty
        simp at hEmpty
      · split at hFollow
        · rename_i hNode
          rcases ih hNode hFollow with
            ⟨parent, hParent, hNames, hOther⟩
          refine ⟨parent, hParent, hNames, ?_⟩
          intro other
          rw [List.cons_append, FileSystem.follow,
            if_neg hLong, if_neg (by simp), hNode]
          exact hOther other
        · contradiction
        · contradiction

/- The way begins in a directory. -/
theorem node?_of_begin
    {path : Path}
    {start : List String}
    (hBegin : fs.begin path = .ok start) :
    fs.node? start.reverse = some .directory := by
  unfold FileSystem.begin at hBegin
  split at hBegin
  · split at hBegin
    · cases hBegin
      assumption
    · contradiction
  · cases hBegin
    rfl

/-
  The place of a file has a directory and a name. The same
  text with a suffix stands for no place, or for the one with
  a longer name in the same directory.
-/
theorem place?_append
    (hPlace : fs.place? text = some place)
    (hFile : place.isDirectory = false) :
    ∃ parent name,
      place.names = parent ++ [name] ∧
      fs.node? parent = some .directory ∧
      ∀ suffix,
        Path.Suffix suffix →
          fs.place? (text ++ suffix) = none ∨
          fs.place? (text ++ suffix) =
            some ⟨parent ++ [name ++ suffix], false⟩ := by
  rcases place?_eq_some_iff.mp hPlace with
    ⟨path, start, names, hPath, hStart, hNames, rfl⟩
  rcases Path.parse_append hPath hFile with
    ⟨front, name, hSteps, hSome, hDots, hSuffixes⟩
  rw [hSteps] at hNames
  rcases follow_append (node?_of_begin hStart) hNames with
    ⟨parent, hParent, hEnd, hOther⟩
  have hDescend :
      ∀ {step : String},
        Path.isDots step = false →
          (Path.descend parent step).reverse =
            parent.reverse ++ [step] := by
    intro step hStep
    rw [Path.isDots, Bool.or_eq_false_iff] at hStep
    rw [Path.descend, if_neg (of_decide_eq_false hStep.1),
      if_neg (of_decide_eq_false hStep.2), List.reverse_cons]
  refine
    ⟨parent.reverse, name, hEnd.trans (hDescend hDots),
      hParent, ?_⟩
  intro suffix hSuffix
  cases hOpen : fs.place? (text ++ suffix) with
  | none =>
    left
    rfl
  | some further =>
    right
    rcases place?_eq_some_iff.mp hOpen with
      ⟨longer, start', names', hLonger, hStart', hNames', rfl⟩
    rcases hSuffixes suffix hSuffix with hError | hOk
    · rw [hError] at hLonger
      contradiction
    · rw [hOk] at hLonger
      cases hLonger
      have hBegin : fs.begin path = .ok start' := hStart'
      rw [hStart] at hBegin
      cases hBegin
      rw [hOther] at hNames'
      split at hNames'
      · contradiction
      · cases hNames'
        rw [hDescend (Path.isDots_append hSome hSuffix)]

/- Two texts do not stand for the same entry. -/
def Apart
    (fs : FileSystem)
    (text other : String) : Prop :=
  ∀ place ∈ fs.place? text, ∀ further ∈ fs.place? other,
    place.names ≠ further.names

instance
    (fs : FileSystem)
    (text other : String) : Decidable (fs.Apart text other) :=
  inferInstanceAs
    (Decidable
      (∀ place ∈ fs.place? text, ∀ further ∈ fs.place? other,
        place.names ≠ further.names))

theorem Apart.symm
    {other : String}
    (hApart : fs.Apart text other) :
    fs.Apart other text := by
  intro place hOther further hText hSame
  exact hApart further hText place hOther hSame.symm

theorem SameDirectories.apart
    (hSame : SameDirectories fs fs')
    {other : String}
    (hApart : fs.Apart text other) :
    fs'.Apart text other := by
  intro place hText further hOther
  rw [hSame.place?_eq] at hText hOther
  exact hApart place hText further hOther

/- A suffix makes another name. -/
theorem apart_append
    (hPlace : fs.place? text = some place)
    (hFile : place.isDirectory = false)
    {suffix : String}
    (hSuffix : Path.Suffix suffix) :
    fs.Apart text (text ++ suffix) := by
  rcases place?_append hPlace hFile with
    ⟨parent, name, hNames, _, hSuffixes⟩
  intro near hNear far hFar hSame
  rw [hPlace] at hNear
  cases hNear
  rcases hSuffixes suffix hSuffix with hNone | hSome
  · rw [hNone] at hFar
    contradiction
  · rw [hSome] at hFar
    cases hFar
    rw [hNames] at hSame
    have hName : name = name ++ suffix := by simpa using hSame
    have hEmpty : suffix = "" :=
      String.append_eq_left_iff.mp hName.symm
    have hLong := hSuffix.long
    rw [hEmpty] at hLong
    contradiction

/- Different suffixes make different names. -/
theorem apart_suffixes
    (hPlace : fs.place? text = some place)
    (hFile : place.isDirectory = false)
    {left right : String}
    (hLeft : Path.Suffix left)
    (hRight : Path.Suffix right)
    (hDiffer : left ≠ right) :
    fs.Apart (text ++ left) (text ++ right) := by
  rcases place?_append hPlace hFile with
    ⟨parent, name, _, _, hSuffixes⟩
  intro near hNear far hFar hSame
  rcases hSuffixes left hLeft with hNone | hSome
  · rw [hNone] at hNear
    contradiction
  rw [hSome] at hNear
  cases hNear
  rcases hSuffixes right hRight with hNone | hSome'
  · rw [hNone] at hFar
    contradiction
  rw [hSome'] at hFar
  cases hFar
  have hName : name ++ left = name ++ right := by
    simpa using hSame
  exact hDiffer (String.append_right_inj name |>.mp hName)

end FileSystem

end SplitStream
