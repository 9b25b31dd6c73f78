import SplitStream.Checksum.Basic
import SplitStream.Codec.Status
import SplitStream.Limits
import SplitStream.Text.Quoted

/-
  This file defines the causes for which an operation fails
  and the text of each.

  Key definitions include:
    * `IoKind`
    * `Misuse`
    * `FrameFault`
    * `Cut`
    * `Error`
    * `Error.message`
    * `Error.isIntegrity`
    * `Error.isTruncation`
    * `Error.ioKind`
-/

------------------------------------------------------------
-- Failures Of Devices
------------------------------------------------------------

namespace SplitStream

/- The ways in which a source, a sink or a file fails. -/
inductive IoKind where
  | notFound
  | permissionDenied
  | connectionReset
  | brokenPipe
  | alreadyExists
  | notADirectory
  | isADirectory
  | directoryNotEmpty
  | invalidInput
  | invalidData
  | writeZero
  | storageFull
  | invalidName
  | zeroInName
  | unexpectedEnd
  | other
  deriving DecidableEq, Repr

namespace IoKind

/- The text of a failure for a reader. -/
def text : IoKind → String
  | notFound => "No such file or directory (os error 2)"
  | permissionDenied => "Permission denied (os error 13)"
  | connectionReset => "Connection reset by peer (os error 104)"
  | brokenPipe => "Broken pipe (os error 32)"
  | alreadyExists => "File exists (os error 17)"
  | notADirectory => "Not a directory (os error 20)"
  | isADirectory => "Is a directory (os error 21)"
  | directoryNotEmpty => "Directory not empty (os error 39)"
  | invalidInput => "Invalid argument (os error 22)"
  | invalidData => "invalid data"
  | writeZero => "failed to write whole buffer"
  | storageFull => "No space left on device (os error 28)"
  | invalidName => "File name too long (os error 36)"
  | zeroInName =>
      "file name contained an unexpected NUL byte"
  | unexpectedEnd => "failed to fill whole buffer"
  | other => "other error"

end IoKind

------------------------------------------------------------
-- Misuses
------------------------------------------------------------

/- The requests that no state of the library can serve. -/
inductive Misuse where
  | blockSize (requested : Nat)
  | range (size offset length : Nat)
  | writeAfterFinish
  | lateIndex (frames : Nat)
  | overlongReport (codec : String) (reported room : Nat)
  | overlongName (length : Nat)
  | unknownCodec (name : String)
  | offsetInHeader (offset headerLength : Nat)
  | other (text : String)
  deriving DecidableEq, Repr

namespace Misuse

/- The text of a misuse. -/
def text : Misuse → String
  | blockSize requested =>
      "block size " ++ toString requested ++ " outside 1..=" ++
        toString maxBlockSize
  | range size offset length =>
      "illegal range in buffer: buffer length=" ++
        toString size ++ ", offset=" ++ toString offset ++
        ", length=" ++ toString length
  | writeAfterFinish =>
      "write after finish; reset the writer to start a new member"
  | lateIndex frames =>
      "index attached after " ++ toString frames ++
        " frames were written"
  | overlongReport codec reported room =>
      "codec " ++ codec ++ " reported " ++ toString reported ++
        " bytes for a " ++ toString room ++
        "-byte output buffer"
  | overlongName length =>
      "stored name is " ++ toString length ++
        " bytes, limit is 255"
  | unknownCodec name =>
      "unknown codec " ++ Text.quote name ++
        "; bundled codecs are stored, lz4, zstd"
  | offsetInHeader offset headerLength =>
      "index offset " ++ toString offset ++
        " lies inside the " ++ toString headerLength ++
        "-byte header"
  | other text => text

end Misuse

------------------------------------------------------------
-- Faults Of Frames
------------------------------------------------------------

/- The lengths in a stream that no writer would declare. -/
inductive FrameFault where
  | plainLength (declared : Nat)
  | packedLength (declared bound : Nat)
  | packedBeyondPlain (packed plain : Nat)
  | lengthsAt (offset plain packed : Nat)
  | plainLengthAt (offset plain : Nat)
  | extraField (length : Nat)
  | other (text : String)
  deriving DecidableEq, Repr

namespace FrameFault

/- The text of a fault. -/
def text : FrameFault → String
  | plainLength declared =>
      "uncompressed length " ++ toString declared ++
        " exceeds " ++ toString maxBlockSize
  | packedLength declared bound =>
      "compressed length " ++ toString declared ++
        " exceeds " ++ toString bound
  | packedBeyondPlain packed plain =>
      "compressed length " ++ toString packed ++
        " exceeds uncompressed length " ++ toString plain
  | lengthsAt offset plain packed =>
      "frame at " ++ toString offset ++ " declares ulen=" ++
        toString plain ++ " clen=" ++ toString packed
  | plainLengthAt offset plain =>
      "frame at " ++ toString offset ++ " declares ulen=" ++
        toString plain
  | extraField length =>
      "extra field of " ++ toString length ++ " bytes"
  | other text => text

end FrameFault

------------------------------------------------------------
-- Cuts
------------------------------------------------------------

/- The places at which a stream can end too early. -/
inductive Cut where
  | magic
  | header
  | frameLength
  | frameChecksum
  | framePayload
  | endMarker
  | frameExtent
  | other (text : String)
  deriving DecidableEq, Repr

namespace Cut

/- The text of a place. -/
def text : Cut → String
  | magic => "EOF inside container magic"
  | header => "EOF inside container header"
  | frameLength => "EOF inside frame length"
  | frameChecksum => "EOF inside frame checksum"
  | framePayload => "EOF inside frame payload"
  | endMarker => "missing end-of-stream marker"
  | frameExtent => "frame extends past end of stream"
  | other text => text

end Cut

------------------------------------------------------------
-- Errors
------------------------------------------------------------

/- The causes for which an operation fails. -/
inductive Error where
  | io (kind : IoKind)
  | misuse (cause : Misuse)
  | codec (status : CodecStatus) (reason : String)
  | badMagic (found : Bytes)
  | unsupportedVersion (version : UInt16)
  | reservedFlags (bits : UInt32)
  | unsupported (feature : String)
  | methodMismatch (expected found : UInt8)
  | unknownMethod (method : UInt8)
  | headerChecksum (expected actual : UInt32)
  | corruptFrame (fault : FrameFault)
  | lengthMismatch (expected actual : Nat)
  | checksumMismatch
      (kind : Checksum) (scope : Checksum.Scope)
      (expected actual : UInt32)
  | corruptIndex (length : Nat)
  | unorderedIndex (previous offset : Nat)
  | truncated (cut : Cut)
  deriving DecidableEq, Repr

namespace Error

/- Bytes as a bracketed list of two-digit numbers. -/
def byteList
    (bs : Bytes) : String :=
  "[" ++
    String.intercalate ", "
      (bs.map fun b => Numeral.hexDigits 2 b.toNat) ++
    "]"

/- The text of an error. -/
def message : Error → String
  | io kind => "IO error: " ++ kind.text
  | misuse cause => "Invalid argument: " ++ cause.text
  | codec status reason =>
      "Codec error " ++ toString status.code ++ " (" ++
        status.label ++ "): " ++ reason
  | badMagic found =>
      "Invalid container magic: " ++ byteList found
  | unsupportedVersion version =>
      "Unsupported container version: " ++
        Numeral.hex 4 version.toNat
  | reservedFlags bits =>
      "Reserved flag bits set: " ++ Numeral.hex 8 bits.toNat
  | unsupported feature =>
      "Unsupported container feature: " ++ feature
  | methodMismatch expected found =>
      "Method mismatch: stream uses method " ++
        Numeral.hex 2 found.toNat ++
        " but codec provides " ++
        Numeral.hex 2 expected.toNat
  | unknownMethod method =>
      "Unknown compression method: " ++
        Numeral.hex 2 method.toNat
  | headerChecksum expected actual =>
      "Header checksum mismatch: expected " ++
        Numeral.hex 8 expected.toNat ++ ", got " ++
        Numeral.hex 8 actual.toNat
  | corruptFrame fault => "Corrupt frame: " ++ fault.text
  | lengthMismatch expected actual =>
      "Output " ++
        (if actual < expected then "underrun" else "overrun") ++
        ": frame declares " ++ toString expected ++
        " bytes, codec produced " ++ toString actual
  | checksumMismatch kind scope expected actual =>
      kind.name ++ " checksum mismatch on " ++ scope.name ++
        " data: expected " ++ Numeral.hex 8 expected.toNat ++
        ", got " ++ Numeral.hex 8 actual.toNat
  | corruptIndex length =>
      "Corrupt index: length " ++ toString length ++
        " is not a multiple of 8"
  | unorderedIndex previous offset =>
      "Index offsets must be strictly increasing: " ++
        toString offset ++ " follows " ++ toString previous
  | truncated cut =>
      "Premature end of stream: " ++ cut.text

------------------------------------------------------------
-- Classes
------------------------------------------------------------

/- The error says that a stream or an index is damaged. -/
def isIntegrity : Error → Bool
  | io _ | misuse _ | codec _ _ | truncated _ => false
  | _ => true

/- The error says that a stream ends too early. -/
def isTruncation : Error → Bool
  | truncated _ => true
  | _ => false

/- The kind under which a byte interface reports the error. -/
def ioKind : Error → IoKind
  | io kind => kind
  | misuse _ => .invalidInput
  | truncated _ => .unexpectedEnd
  | _ => .invalidData

end Error

------------------------------------------------------------
-- Ranges
------------------------------------------------------------

/-
  A range is legal if it ends inside a buffer of `size`
  bytes.
-/
def checkRange
    (size offset length : Nat) : Except Error Unit :=
  if offset + length ≤ size then
    .ok ()
  else
    .error (.misuse (.range size offset length))

end SplitStream
