import SplitStream.Command.Exchange
import SplitStream.Command.Run

/-
  This file defines the program.  It loads the files that the
  request may touch, carries the request out, and stores what
  has changed.

  Key definitions include:
    * `main`
-/

------------------------------------------------------------
-- Surroundings
------------------------------------------------------------

namespace SplitStream

namespace Program

/- The result of an action, if it does not fail. -/
def attempt
    {α : Type}
    (action : IO α) : IO (Option α) := do
  try
    return some (← action)
  catch _ =>
    return none

/- The time, as that of a file that is made for it. -/
def clock : IO UInt32 := do
  let (_, path) ← IO.FS.createTempFile
  let time := (← path.metadata).modified.sec
  IO.FS.removeFile path
  return UInt32.ofNat time.toNat

/- Everything from the standard input. -/
def readInput : IO Bytes := do
  let stdin ← IO.getStdin
  let mut tape := Tape.empty
  repeat
    let piece ← stdin.read 65536
    if piece.isEmpty then
      break
    tape := tape.append piece.toList
  return tape.toBytes

/- Enter a directory into a tree if it is there. -/
def loadDirectory
    (fs : FileSystem)
    (path : String) : IO FileSystem := do
  match ← attempt (IO.FS.realPath path) with
  | none => return fs
  | some entry =>
    if ← entry.isDir then
      return ((FileSystem.makeDirectory path).perform fs).2
    else
      return fs

/- Enter a file into a tree if it is there, and its directories. -/
def loadFile
    (fs : FileSystem)
    (path : String) : IO FileSystem := do
  let fs ← (Path.ancestors path).foldlM loadDirectory fs
  match ← attempt (IO.FS.readBinFile path) with
  | none => loadDirectory fs path
  | some bs =>
      return ((FileSystem.putFile path bs.toList).perform fs).2

/- Store what has become of a file. -/
def storeFile
    (before after : FileSystem)
    (path : String) : IO Unit := do
  match Change.between before after path with
  | .unchanged => return ()
  | .written bs => IO.FS.writeBinFile path ⟨bs.toArray⟩
  | .removed => IO.FS.removeFile path

------------------------------------------------------------
-- Program
------------------------------------------------------------

/- The line that explains the arguments. -/
def usage : String :=
  "usage: splitz [-v] compress INPUT OUTPUT [-c CODEC] " ++
    "[--level N] [-b SIZE] [--raw] [--index] " ++
    "[--checksums LIST]\n" ++
    "       splitz [-v] decompress INPUT OUTPUT [-c CODEC]\n" ++
    "       splitz [-v] index FILE\n" ++
    "       splitz [-v] inspect FILE [--blocks]\n" ++
    "       splitz [-v] read-block FILE -i BLOCK " ++
    "[-c CODEC] [-o OUTPUT]"

/- The line that names the version. -/
def version : String :=
  "splitz 0.1.0"

/- Carry out a request, and return the exit code. -/
def perform
    (request : Request) : IO UInt32 := do
  let before ← request.touched.foldlM loadFile .rooted
  let input ← if request.readsInput then readInput else pure []
  let (result, session) :=
    request.run.perform (.start before (← clock) input)
  for path in request.touched do
    storeFile before session.files path
  let stdout ← IO.getStdout
  stdout.write ⟨session.printed.toBytes.toArray⟩
  stdout.flush
  for line in session.notes.reverse do
    IO.eprintln line
  match result with
  | .ok () => return 0
  | .error failure =>
    for line in failure.report do
      IO.eprintln line
    return 1

/- Carry out the request that arguments state. -/
def run
    (arguments : List String) : IO UInt32 := do
  let environment : Environment :=
    { codec := ← IO.getEnv "SPLITZ_CODEC"
      blockSize := ← IO.getEnv "SPLITZ_BLOCK_SIZE" }
  match Request.ofArguments environment arguments with
  | .ok request => perform request
  | .error .helpWanted =>
    IO.println usage
    return 0
  | .error .versionWanted =>
    IO.println version
    return 0
  | .error _ =>
    IO.eprintln usage
    return 2

end Program

end SplitStream

/- The program. -/
def main
    (arguments : List String) : IO UInt32 :=
  SplitStream.Program.run arguments
