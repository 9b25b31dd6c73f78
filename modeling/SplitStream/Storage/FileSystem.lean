import SplitStream.Action
import SplitStream.Bytes.Tape
import SplitStream.Source
import SplitStream.Storage.Path
import SplitStream.Table

/-
  This file defines directory trees of files.  A file is
  known by a number and keeps its bytes as long as the number
  is in use, whatever happens to its name.

  Each operation is one step.  A step may fail for reasons
  outside the tree, which `faults` names by the number of the
  step; such a step changes nothing.

  Key definitions include:
    * `Node`
    * `FileSystem`
    * `FileSystem.locate`
    * `FileSystem.openNode`
    * `FileSystem.createFile`
    * `FileSystem.removeFile`
    * `FileSystem.rename`
    * `FileSystem.makeDirectory`
    * `FileSystem.writeAt`
    * `FileSystem.sourceOf`
-/

------------------------------------------------------------
-- Trees
------------------------------------------------------------

namespace SplitStream

/- An entry of a directory. -/
inductive Node where
  | directory
  | file (number : Nat)
  deriving DecidableEq, Repr

/-
  Bytes on their way to a file: the file, the position at
  which they will be written, and the bytes.
-/
structure OpenStream where
  file : Nat
  position : Nat
  buffer : Tape

/-
  A tree of directories and files, and the streams open for
  writing.  `next` is the next unused number, and `step`
  counts the operations.
-/
structure FileSystem where
  nodes : Table (List String) Node
  files : Table Nat Tape
  streams : Table Nat OpenStream
  next : Nat
  faults : Nat → Option IoKind
  step : Nat

namespace FileSystem

/- A working directory without entries and without a root. -/
def empty : FileSystem where
  nodes := .empty
  files := .empty
  streams := .empty
  next := 0
  faults := fun _ => none
  step := 0

/- A tree whose root can be reached by paths as well. -/
def rooted : FileSystem :=
  { empty with
    nodes := Table.empty.set [Path.root] .directory }

/- The entry at the given names; the working directory is one. -/
def node?
    (fs : FileSystem)
    (names : List String) : Option Node :=
  match names with
  | [] => some .directory
  | _ => fs.nodes.get? names

/- The bytes of a file. -/
def bytesOf
    (fs : FileSystem)
    (number : Nat) : Bytes :=
  match fs.files.get? number with
  | none => []
  | some tape => tape.toBytes

------------------------------------------------------------
-- Steps
------------------------------------------------------------

/- Fail for a reason of the tree. -/
def refuse
    {α : Type}
    (kind : IoKind) : Action FileSystem α :=
  throw (.io kind)

/- Count one step, which may fail for a reason outside. -/
def attempt : Action FileSystem Unit := do
  let fs ← get
  set { fs with step := fs.step + 1 }
  match fs.faults fs.step with
  | some kind => refuse kind
  | none => pure ()

/-
  An entry, which need not be there: the names from the
  working directory down to it.
-/
structure Place where
  names : List String
  isDirectory : Bool

/-
  Follow the steps of a path.  Every directory on the way
  must exist; the entry at its end is not looked at.
-/
def follow
    (fs : FileSystem)
    (lastFirst : List String) :
    List String → Except IoKind (List String)
  | [] => .ok lastFirst.reverse
  | step :: rest =>
      let here := Path.descend lastFirst step
      if Path.maxName < step.utf8ByteSize then
        .error .invalidName
      else if rest.isEmpty then
        .ok here.reverse
      else
        match fs.node? here.reverse with
        | some .directory => follow fs here rest
        | some (.file _) => .error .notADirectory
        | none => .error .notFound

/- The names at which the steps of a path begin. -/
def begin
    (fs : FileSystem)
    (path : Path) : Except IoKind (List String) :=
  if path.fromRoot then
    if fs.node? [Path.root] = some .directory then
      .ok [Path.root]
    else
      .error .notFound
  else
    .ok []

/- The place that a text stands for. -/
def locate
    (text : String) : Action FileSystem Place := do
  let fs ← get
  ofExcept (Except.mapError .io do
    let path ← Path.parse text
    let names ← fs.follow (← fs.begin path) path.steps
    return { names := names, isDirectory := path.isDirectory })

------------------------------------------------------------
-- Reading
------------------------------------------------------------

/- Open an entry, which may be a directory. -/
def openNode
    (text : String) : Action FileSystem Node := do
  attempt
  let place ← locate text
  match (← get).node? place.names with
  | none => refuse .notFound
  | some .directory => return .directory
  | some (.file number) =>
      if place.isDirectory then
        refuse .notADirectory
      else
        return .file number

/- A source of an open entry.  A directory cannot be read. -/
def sourceOf
    (fs : FileSystem) : Node → Source
  | .directory =>
      .atPosition [] 0 (some (0, .isADirectory)) .prompt
  | .file number => .ofBytes (fs.bytesOf number)

/- Read from an open entry, from its beginning on. -/
def withSource
    {α : Type}
    (node : Node)
    (reading : Reading α) : Action FileSystem α := do
  let fs ← get
  ofExcept (reading.perform (fs.sourceOf node)).1

/- The positions that a file can have lie below this one. -/
def positionLimit : Nat :=
  0x8000000000000000

/- Only a position that a file can have can be moved to. -/
def checkOffset
    (offset : Nat) : Action FileSystem Unit :=
  if offset < positionLimit then
    pure ()
  else
    refuse .invalidInput

/- The size of a file. -/
def fileSize
    (text : String) : Action FileSystem Nat := do
  match ← openNode text with
  | .directory => return 0
  | .file number => return ((← get).bytesOf number).length

------------------------------------------------------------
-- Names
------------------------------------------------------------

/- Use up one number. -/
def freshNumber : Action FileSystem Nat := do
  let fs ← get
  set { fs with next := fs.next + 1 }
  return fs.next

/- Give a file the given bytes. -/
def setBytes
    (number : Nat)
    (tape : Tape) : Action FileSystem Unit :=
  modify fun fs =>
    { fs with files := fs.files.set number tape }

/- Enter a node under the given names. -/
def setNode
    (names : List String)
    (node : Node) : Action FileSystem Unit :=
  modify fun fs =>
    { fs with nodes := fs.nodes.set names node }

/- Make an empty file, or empty the file that is there. -/
def createFile
    (text : String) : Action FileSystem Nat := do
  attempt
  let place ← locate text
  if place.isDirectory then
    refuse .isADirectory
  match (← get).node? place.names with
  | some .directory => refuse .isADirectory
  | some (.file number) =>
      setBytes number .empty
      return number
  | none =>
      let number ← freshNumber
      setNode place.names (.file number)
      setBytes number .empty
      return number

/- Remove the name of a file. -/
def removeFile
    (text : String) : Action FileSystem Unit := do
  attempt
  let place ← locate text
  match (← get).node? place.names with
  | none => refuse .notFound
  | some .directory => refuse .isADirectory
  | some (.file _) =>
      if place.isDirectory then
        refuse .notADirectory
      modify fun fs =>
        { fs with nodes := fs.nodes.erase place.names }

/- Some entry lies below the given names. -/
def hasEntries
    (fs : FileSystem)
    (names : List String) : Bool :=
  fs.nodes.keys.any fun key =>
    names.isPrefixOf key && names.length < key.length

/- Move every entry below the names `old` to below `new`. -/
def moveBelow
    (old new : List String)
    (nodes : Table (List String) Node) :
    Table (List String) Node where
  entries :=
    (Table.without new nodes.entries).map fun (key, node) =>
      if old.isPrefixOf key then
        (new ++ key.drop old.length, node)
      else
        (key, node)

/-
  Give an entry another name.  What had that name before is
  gone: a file for a file, an empty directory for a directory.
-/
def rename
    (source target : String) : Action FileSystem Unit := do
  attempt
  let old ← locate source
  let new ← locate target
  let fs ← get
  match fs.node? old.names, fs.node? new.names with
  | none, _ => refuse .notFound
  | some (.file _), some .directory => refuse .isADirectory
  | some .directory, some (.file _) => refuse .notADirectory
  | some node, _ =>
      if old.names = new.names then
        return
      if node = .directory then
        if old.names.isPrefixOf new.names then
          refuse .invalidInput
        if fs.hasEntries new.names then
          refuse .directoryNotEmpty
      else if old.isDirectory ∨ new.isDirectory then
        refuse .notADirectory
      set { fs with
        nodes := moveBelow old.names new.names fs.nodes }

/- Make an empty directory. -/
def makeDirectory
    (text : String) : Action FileSystem Unit := do
  attempt
  let place ← locate text
  match (← get).node? place.names with
  | some _ => refuse .alreadyExists
  | none => setNode place.names .directory

------------------------------------------------------------
-- Writing
------------------------------------------------------------

/-
  Bytes with others put over them at a position.  A gap
  before the position is filled with zeros.
-/
def splice
    (tape : Tape)
    (position : Nat)
    (bs : Bytes) : Tape :=
  if tape.size = position then
    tape.append bs
  else
    let old := tape.toBytes
    .ofBytes
      (old.take position ++
        List.replicate (position - tape.size) 0 ++ bs ++
        old.drop (position + bs.length))

/- Write bytes at a position of a file. -/
def writeAt
    (number position : Nat)
    (bs : Bytes) : Action FileSystem Unit := do
  attempt
  let fs ← get
  let tape := (fs.files.get? number).getD .empty
  setBytes number (splice tape position bs)

/- Make a file with the given bytes. -/
def putFile
    (text : String)
    (bs : Bytes) : Action FileSystem Unit := do
  let number ← createFile text
  writeAt number 0 bs

/- The bytes of a file. -/
def fetch
    (text : String) : Action FileSystem Bytes := do
  withSource (← openNode text) Reading.toEnd

/- The names in the working directory. -/
def names
    (fs : FileSystem) : List String :=
  fs.nodes.keys.filterMap fun key =>
    match key with
    | [name] => if name = Path.root then none else some name
    | _ => none

end FileSystem

end SplitStream
