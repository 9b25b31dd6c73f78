import SplitStream.Codec.Bundled
import SplitStream.Command.Session
import SplitStream.Reader.Container
import SplitStream.Reader.Raw

/-
  This file defines how commands look into a compressed file:
  its framing, its codec and its index.

  Key definitions include:
    * `Described`
    * `Described.read`
    * `IndexOrigin`
    * `Command.findIndex`
-/

------------------------------------------------------------
-- Framing
------------------------------------------------------------

namespace SplitStream

/-
  What the beginning of a stream tells.  Raw streams have no
  header.
-/
structure Described where
  header : Option Header
  codec : Codec

namespace Described

/-
  Look at the beginning of a file.  A container names its
  codec, and a raw stream has the codec that is given.
-/
def read
    [Engines]
    (path : String)
    (rawCodec : Bundled) : Command Described := do
  let node ←
    Command.during (.openingStream path)
      (Command.device (FileSystem.openNode path))
  match ← Command.library
      (FileSystem.withSource node Scan.detect) with
  | .raw =>
      return { header := none, codec := rawCodec.codec none }
  | .container =>
      let header ←
        Command.during (.readingHeader path)
          (Command.library
            (FileSystem.withSource node Header.read))
      let codec ←
        Command.library
          (ofExcept (Bundled.codecOfMethod header.method))
      return { header := some header, codec := codec }

end Described

------------------------------------------------------------
-- Indexes
------------------------------------------------------------

/- Where the index of a stream was found. -/
inductive IndexOrigin where
  | file
  | scan
  deriving DecidableEq, Repr

namespace IndexOrigin

/- The text of an origin. -/
def text : IndexOrigin → String
  | file => "index file"
  | scan => "scan"

end IndexOrigin

/- The index beside a file, or that of a scan if there is none. -/
def Command.findIndex
    (path : String) : Command (FrameIndex × IndexOrigin) := do
  match ← Command.library (IndexFile.load path) with
  | some index => return (index, .file)
  | none =>
    let node ← Command.device (FileSystem.openNode path)
    let index ←
      Command.library (FileSystem.withSource node Scan.stream)
    return (index, .scan)

end SplitStream
