import SplitStream.FrameIndex.Basic
import SplitStream.Scan
import SplitStream.Storage.OutputStream

/-
  This file defines index files.  The index of a file stands
  beside it, under the file's name with a suffix.  It is
  written under a temporary name and gets its own name when
  it is complete.

  Key definitions include:
    * `IndexFile.pathFor`
    * `IndexFile.legacyPathFor`
    * `IndexFile`
    * `IndexFile.create`
    * `IndexFile.publish`
    * `IndexFile.discard`
    * `IndexFile.save`
    * `IndexFile.load`
    * `IndexFile.rebuild`
-/

------------------------------------------------------------
-- Names
------------------------------------------------------------

namespace SplitStream

/- An index being written: a stream and the name it will get. -/
structure IndexFile where
  stream : OutputStream
  target : String

namespace IndexFile

/- The name of the index of a file. -/
def pathFor
    (file : String) : String :=
  file ++ ".idx"

/- The name under which older indexes are found. -/
def legacyPathFor
    (file : String) : String :=
  file ++ ".index"

/- The name of an index that is not complete. -/
def temporary
    (target : String) : String :=
  target ++ ".tmp"

------------------------------------------------------------
-- Writing
------------------------------------------------------------

/- Begin an index that will get the given name. -/
def create
    (target : String) : Action FileSystem IndexFile := do
  let stream ← OutputStream.create (temporary target)
  return { stream := stream, target := target }

/- The channel of an index. -/
def channel
    (index : IndexFile) : Channel FileSystem :=
  index.stream.channel

/- Write bytes to an index. -/
def write
    (index : IndexFile)
    (bs : Bytes) : Action FileSystem Unit :=
  index.stream.deliver bs

/- Hand everything written so far to the file. -/
def flush
    (index : IndexFile) : Action FileSystem Unit :=
  index.stream.flushBuffer

/- Give up an index and remove what was written of it. -/
def discard
    (index : IndexFile) : Action FileSystem Unit := do
  index.stream.discard
  modify (FileSystem.removeFile (temporary index.target)).final

/-
  Complete an index and give it its name.  If this fails on
  the way, the temporary file stays.
-/
def publish
    (index : IndexFile) : Action FileSystem String := do
  Step.ensuring index.stream.discard.final do
    index.stream.flushBuffer
    index.stream.sync
  FileSystem.rename (temporary index.target) index.target
  return index.target

/- Write the index of a file beside it. -/
def save
    (index : FrameIndex)
    (file : String) : Action FileSystem String := do
  let out ← create (pathFor file)
  Step.onFailure out.discard.final do
    out.write index.toBytes
    out.flush
  out.publish

------------------------------------------------------------
-- Reading
------------------------------------------------------------

/- Open an entry, if there is one. -/
def openIfPresent
    (text : String) : Action FileSystem (Option Node) :=
  .ofStep fun fs =>
    match (FileSystem.openNode text).perform fs with
    | (.ok node, fs) => (.ok (some node), fs)
    | (.error (.io .notFound), fs) => (.ok none, fs)
    | (.error e, fs) => (.error e, fs)

/- Read an index from an open entry. -/
def readFrom
    (node : Node) : Action FileSystem FrameIndex := do
  let bs ← FileSystem.withSource node Reading.toEnd
  ofExcept (FrameIndex.ofBytes bs)

/- The index that stands beside a file, if there is one. -/
def load
    (file : String) : Action FileSystem (Option FrameIndex) := do
  match ← openIfPresent (pathFor file) with
  | some node => return some (← readFrom node)
  | none =>
    match ← openIfPresent (legacyPathFor file) with
    | some node => return some (← readFrom node)
    | none => return none

/- Scan a file. -/
def scanFile
    (file : String) : Action FileSystem FrameIndex := do
  FileSystem.withSource (← FileSystem.openNode file) Scan.stream

/- Scan a file and write its index beside it. -/
def rebuild
    (file : String) : Action FileSystem FrameIndex := do
  let index ← scanFile file
  let _ ← save index file
  return index

end IndexFile

end SplitStream
