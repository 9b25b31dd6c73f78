import SplitStream.Command.Failure
import SplitStream.Storage.IndexFile

/-
  This file defines sessions, what a command sees and
  changes: the files, the bytes of its input, and what it has
  printed.

  Key definitions include:
    * `Session`
    * `Command`
    * `Command.library`
    * `Command.device`
    * `Command.during`
    * `Command.cleaning`
    * `Command.print`
    * `Command.note`
-/

------------------------------------------------------------
-- Sessions
------------------------------------------------------------

namespace SplitStream

/-
  The surroundings of a command.  `printed` is its output;
  `notes` are the lines it has noted beside it, the last one
  first.
-/
structure Session where
  files : FileSystem
  clock : UInt32
  input : Bytes
  printed : Tape
  notes : List String

namespace Session

/- A session in which nothing has happened. -/
def start
    (files : FileSystem)
    (clock : UInt32)
    (input : Bytes) : Session where
  files := files
  clock := clock
  input := input
  printed := .empty
  notes := []

end Session

/- A step that changes a session and may fail. -/
abbrev Command
    (α : Type) : Type :=
  Step Failure Session α

namespace Command

variable {α : Type}

------------------------------------------------------------
-- Files
------------------------------------------------------------

/- An action on the files. -/
def onFiles
    (failure : Error → Failure)
    (action : Action FileSystem α) : Command α :=
  .ofStep fun session =>
    let (result, files) := action.perform session.files
    (result.mapError failure, { session with files := files })

/- An action of the library on the files. -/
def library
    (action : Action FileSystem α) : Command α :=
  onFiles .library action

/- An action on the files through an interface for bytes. -/
def device
    (action : Action FileSystem α) : Command α :=
  onFiles .device action

------------------------------------------------------------
-- Failures
------------------------------------------------------------

/- A command whose failure tells what was being done. -/
def during
    (context : Context)
    (command : Command α) : Command α :=
  .ofStep fun session =>
    let (result, session) := command.perform session
    (result.mapError (.during context), session)

/- The session that an action on the files leaves. -/
def cleaning
    (cleanup : Action FileSystem Unit)
    (session : Session) : Session :=
  { session with files := cleanup.final session.files }

------------------------------------------------------------
-- Printing
------------------------------------------------------------

/- Print bytes. -/
def printBytes
    (bs : Bytes) : Command Unit :=
  modify fun session =>
    { session with printed := session.printed.append bs }

/- Print a line. -/
def print
    (line : String) : Command Unit :=
  printBytes (Bytes.ofText (line ++ "\n"))

/- Print lines. -/
def printAll : List String → Command Unit
  | [] => pure ()
  | line :: rest => do
      print line
      printAll rest

/- Note a line beside the output. -/
def note
    (line : String) : Command Unit :=
  modify fun session =>
    { session with notes := line :: session.notes }

/- Note lines. -/
def noteAll : List String → Command Unit
  | [] => pure ()
  | line :: rest => do
      note line
      noteAll rest

end Command

end SplitStream
