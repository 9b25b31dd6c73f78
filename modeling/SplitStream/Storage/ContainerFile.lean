import SplitStream.Reader.Container
import SplitStream.Storage.IndexFile
import SplitStream.Writer.Container

/-
  This file defines container files: a container writer to a
  file, with an index captured beside it if one is asked for.
  The index gets its name when the writer is closed.

  Key definitions include:
    * `ContainerFile`
    * `ContainerFile.create`
    * `ContainerFile.onWriter`
    * `ContainerFile.close`
    * `ContainerFile.discard`
    * `ContainerFile.openReader`
-/

------------------------------------------------------------
-- Container Files
------------------------------------------------------------

namespace SplitStream

/- A container writer to a file. -/
structure ContainerFile where
  writer : ContainerWriter FileSystem
  stream : OutputStream
  index : Option IndexFile

namespace ContainerFile

/- Remove a file, if it is there. -/
def removeIfPresent
    (text : String) : Action FileSystem Unit :=
  .ofStep fun fs =>
    match (FileSystem.removeFile text).perform fs with
    | (.error (.io .notFound), fs) => (.ok (), fs)
    | outcome => outcome

/-
  Make a container file.  An index of an earlier file of that
  name is removed first.
-/
def create
    (path : String)
    (codec : Codec)
    (options : WriterOptions)
    (clock : UInt32) : Action FileSystem ContainerFile := do
  removeIfPresent (IndexFile.pathFor path)
  let stream ← OutputStream.create path
  Step.onFailure stream.discard.final do
    let writer ←
      ContainerWriter.new stream.channel codec options clock
    if options.index then
      let index ← IndexFile.create (IndexFile.pathFor path)
      let writer ← ofExcept (writer.attach index.channel)
      return {
        writer := writer
        stream := stream
        index := some index }
    else
      return {
        writer := writer
        stream := stream
        index := none }

/- An action on the writer. -/
def onWriter
    {α : Type}
    (action : Action (ContainerWriter FileSystem × FileSystem) α) :
    Action (ContainerFile × FileSystem) α :=
  .within
    (fun (file, fs) => (file.writer, fs))
    (fun (writer, fs) (file, _) =>
      ({ file with writer := writer }, fs))
    action

/- Give up a container file, and with it the index. -/
def discard
    (file : ContainerFile) : Action FileSystem Unit := do
  file.stream.discard
  match file.index with
  | none => pure ()
  | some index => index.discard

/- Write everything that is left, and have it stored. -/
def complete
    (file : ContainerFile) : Action FileSystem Unit := do
  let _ ←
    FrameWriter.withWriter file.writer ContainerWriter.close
  file.stream.sync

/-
  Finish a container file and give the index its name.  If
  something fails, the index is given up.
-/
def close
    (file : ContainerFile) : Action FileSystem Unit := do
  Step.onFailure file.discard.final file.complete
  Step.ensuring file.stream.discard.final do
    match file.index with
    | none => pure ()
    | some index =>
      let _ ← index.publish

------------------------------------------------------------
-- Reading
------------------------------------------------------------

/- A reader of the container in a file. -/
def openReader
    (path : String)
    (codec : Codec) : Action FileSystem ContainerReader := do
  FileSystem.withSource
    (← FileSystem.openNode path) (ContainerReader.start codec)

end ContainerFile

end SplitStream
