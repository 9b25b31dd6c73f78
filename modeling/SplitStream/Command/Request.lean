import SplitStream.Checksum.Selection
import SplitStream.Codec.Bundled
import SplitStream.Limits

/-
  This file defines what a user asks for: the requests of the
  command line, and the mistakes in stating one.

  Key definitions include:
    * `Request`
    * `Verb`
    * `Misstatement`
    * `Environment`
-/

------------------------------------------------------------
-- Requests
------------------------------------------------------------

namespace SplitStream

/- Compress a file to a container or to a raw stream. -/
structure CompressRequest where
  input : String
  output : String
  codec : Bundled
  level : Option Int
  blockSize : Nat
  raw : Bool
  index : Bool
  checksums : Option Selection
  deriving DecidableEq, Repr

/- Restore the file of a stream. -/
structure DecompressRequest where
  input : String
  output : String
  codec : Bundled
  deriving DecidableEq, Repr

/- Describe a stream, and maybe its blocks. -/
structure InspectRequest where
  file : String
  blocks : Bool
  deriving DecidableEq, Repr

/- Restore one block of a stream. -/
structure BlockRequest where
  file : String
  block : Nat
  codec : Bundled
  output : Option String
  deriving DecidableEq, Repr

/- The requests of the command line. -/
inductive Request where
  | compress (request : CompressRequest)
  | decompress (request : DecompressRequest)
  | index (file : String)
  | inspect (request : InspectRequest)
  | readBlock (request : BlockRequest)
  deriving DecidableEq, Repr

------------------------------------------------------------
-- Verbs
------------------------------------------------------------

/- The words that name the kind of a request. -/
inductive Verb where
  | compress
  | decompress
  | index
  | inspect
  | readBlock
  deriving DecidableEq, Repr

namespace Verb

/- The verb that a word names. -/
def ofWord? : String → Option Verb
  | "compress" => some compress
  | "decompress" => some decompress
  | "index" => some index
  | "inspect" => some inspect
  | "read-block" => some readBlock
  | _ => none

end Verb

------------------------------------------------------------
-- Mistakes
------------------------------------------------------------

/- The reasons for which arguments state no request. -/
inductive Misstatement where
  | helpWanted
  | versionWanted
  | nothingStated
  | verbMissing
  | verbUnknown
  | argumentUnknown
  | valueUnwanted
  | valueMissing
  | valueInvalid
  | argumentRepeated
  | argumentMissing
  deriving DecidableEq, Repr

/- The settings outside the arguments that stand in for options. -/
structure Environment where
  codec : Option String
  blockSize : Option String
  deriving DecidableEq, Repr

end SplitStream
