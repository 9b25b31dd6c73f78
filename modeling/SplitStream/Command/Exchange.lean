import SplitStream.Command.Request
import SplitStream.Storage.IndexFile

/-
  This file defines what a request exchanges with the files
  around it: the files it may read or change, and the changes
  it has made to them.

  Key definitions include:
    * `Request.paths`
    * `Request.touched`
    * `Change`
    * `Change.between`
-/

------------------------------------------------------------
-- Files Of A Request
------------------------------------------------------------

namespace SplitStream

namespace Request

/- The paths that a request names. -/
def paths : Request → List String
  | compress request => [request.input, request.output]
  | decompress request => [request.input, request.output]
  | index file => [file]
  | inspect request => [request.file]
  | readBlock request => request.file :: request.output.toList

/-
  The files that a request may touch: those it names, and
  their indexes.
-/
def touched
    (request : Request) : List String :=
  request.paths.flatMap fun path =>
    [ path,
      IndexFile.pathFor path,
      IndexFile.temporary (IndexFile.pathFor path),
      IndexFile.legacyPathFor path ]

/- The request reads the standard input. -/
def readsInput : Request → Bool
  | compress request => request.input = "-"
  | _ => false

end Request

------------------------------------------------------------
-- Changes
------------------------------------------------------------

/- What has become of a file. -/
inductive Change where
  | unchanged
  | written (bs : Bytes)
  | removed
  deriving DecidableEq, Repr

namespace Change

/- The bytes of a file, if it can be read. -/
def contents
    (fs : FileSystem)
    (path : String) : Option Bytes :=
  ((FileSystem.fetch path).perform fs).1.toOption

/- What has become of a file from one state to another. -/
def between
    (before after : FileSystem)
    (path : String) : Change :=
  match contents before path, contents after path with
  | old, some new =>
      if old = some new then unchanged else written new
  | some _, none => removed
  | none, none => unchanged

end Change

end SplitStream
