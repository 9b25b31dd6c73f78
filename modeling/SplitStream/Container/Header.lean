import SplitStream.Source

/-
  This file defines the header of a container member: its
  fields, its layout, and how it is read.

  The layout is a magic number, the body, a checksum of the
  body, and optionally an extra field with a checksum of its
  own.  Versions below 0x0940 have no level, no needed
  version and no time zone.

  Key definitions include:
    * `Header`
    * `Header.body`
    * `Header.pieces`
    * `Header.encode`
    * `Header.writtenLength`
    * `Header.encodedLength`
    * `Header.readAfterMagic`
    * `Header.read`
-/

------------------------------------------------------------
-- Versions
------------------------------------------------------------

namespace SplitStream

namespace Container

/- The bytes that every member starts with. -/
def magic : Bytes :=
  [0x89, 0x4C, 0x5A, 0x4F, 0x00, 0x0D, 0x0A, 0x1A, 0x0A]

/- The version written, and the last one that can be read. -/
def currentVersion : UInt16 :=
  0x1010

/- The version from which on all fields are present. -/
def fullVersion : UInt16 :=
  0x0940

/- The first version that can be read. -/
def firstVersion : UInt16 :=
  0x0900

/- The library version written. -/
def libraryVersion : UInt16 :=
  0x2060

/- The mode written: a regular file, readable by all. -/
def defaultMode : UInt32 :=
  0o100644

------------------------------------------------------------
-- Flags
------------------------------------------------------------

/- A header with an extra field. -/
def extraFlag : UInt32 :=
  0x00000040

/- One part of a stream that is spread over several files. -/
def multipartFlag : UInt32 :=
  0x00000400

/- A header that names a filter. -/
def filterFlag : UInt32 :=
  0x00000800

/- A header whose checksums are CRC-32. -/
def crcFlag : UInt32 :=
  0x00001000

/- The system on which the header was written. -/
def systemMask : UInt32 :=
  0xFF000000

/- The system of the headers written. -/
def unixSystem : UInt32 :=
  0x03000000

/- The character set of the name. -/
def charsetMask : UInt32 :=
  0x00F00000

/- The flags that have a meaning of their own. -/
def knownMask : UInt32 :=
  0x00003FFF

/- The bits that must not be set. -/
def reservedMask : UInt32 :=
  ~~~(knownMask ||| systemMask ||| charsetMask)

end Container

------------------------------------------------------------
-- Headers
------------------------------------------------------------

/- The fields of a member's header. -/
structure Header where
  version : UInt16
  libraryVersion : UInt16
  versionNeeded : UInt16
  method : UInt8
  level : UInt8
  flags : UInt32
  filter : Option UInt32
  mode : UInt32
  time : UInt32
  gmtDiff : UInt32
  name : Bytes
  extra : Option Bytes
  deriving DecidableEq, Repr

namespace Header

/- A header of the current version without a name. -/
def new
    (method level : UInt8)
    (flags time : UInt32) : Header where
  version := Container.currentVersion
  libraryVersion := Container.libraryVersion
  versionNeeded := Container.fullVersion
  method := method
  level := level
  flags := flags
  filter := none
  mode := Container.defaultMode
  time := time
  gmtDiff := 0
  name := []
  extra := none

/- Some of the given flags are set. -/
def hasFlag
    (header : Header)
    (flag : UInt32) : Bool :=
  header.flags &&& flag != 0

/- The kind of the header's own checksums. -/
def checksumKind
    (header : Header) : Checksum :=
  if header.hasFlag Container.crcFlag then .crc32 else .adler32

/- The version has all fields. -/
def isFull
    (header : Header) : Bool :=
  Container.fullVersion ≤ header.version

------------------------------------------------------------
-- Layout
------------------------------------------------------------

/- The fields that the first checksum covers. -/
def body
    (header : Header) : Bytes :=
  Bytes.bigEndian 2 header.version.toNat ++
  Bytes.bigEndian 2 header.libraryVersion.toNat ++
  (if header.isFull then
    Bytes.bigEndian 2 header.versionNeeded.toNat else []) ++
  [header.method] ++
  (if header.isFull then [header.level] else []) ++
  Bytes.bigEndian 4 header.flags.toNat ++
  (match header.filter with
    | none => []
    | some filter => Bytes.bigEndian 4 filter.toNat) ++
  Bytes.bigEndian 4 header.mode.toNat ++
  Bytes.bigEndian 4 header.time.toNat ++
  (if header.isFull then
    Bytes.bigEndian 4 header.gmtDiff.toNat else []) ++
  Bytes.bigEndian 1 header.name.length ++
  header.name

/- The layout of a checksum. -/
def sum
    (header : Header)
    (bs : Bytes) : Bytes :=
  Bytes.bigEndian 4 (header.checksumKind.compute bs).toNat

/- The layout of an extra field. -/
def extraField
    (extra : Bytes) : Bytes :=
  Bytes.bigEndian 4 extra.length ++ extra

/- The pieces in which a header is written. -/
def pieces
    (header : Header) : List Bytes :=
  [Container.magic, header.body, header.sum header.body] ++
  match header.extra with
  | none => []
  | some extra =>
      [extraField extra, header.sum (extraField extra)]

/- The layout of a header. -/
def encode
    (header : Header) : Bytes :=
  header.pieces.flatten

/- The number of bytes that are written, piece by piece. -/
def writtenLength
    (header : Header) : Nat :=
  Container.magic.length + header.body.length + 4 +
    match header.extra with
    | none => 0
    | some extra => (extraField extra).length + 4

/- The length of a header's layout. -/
def encodedLength
    (header : Header) : Nat :=
  31 + (if header.isFull then 7 else 0) +
    (if header.filter.isSome then 4 else 0) +
    header.name.length +
    (match header.extra with
      | none => 0
      | some extra => 8 + extra.length)

------------------------------------------------------------
-- Reading
------------------------------------------------------------

/- The source ended inside a header. -/
def cutShort : Error :=
  .truncated .header

/- Read a number of two bytes. -/
def readHalf : Reading UInt16 := do
  return UInt16.ofNat (← Reading.number cutShort 2)

/- Read a number of one byte. -/
def readByte : Reading UInt8 := do
  return UInt8.ofNat (← Reading.number cutShort 1)

/- Read a checksum and compare it with that of `bs`. -/
def checkSum
    (kind : Checksum)
    (bs : Bytes) : Reading Unit := do
  let expected ← Reading.word cutShort
  let actual := kind.compute bs
  if expected ≠ actual then
    throw (.headerChecksum expected actual)

/- Read the fields up to the name. -/
def readFields : Reading Header := do
  let version ← readHalf
  if version < Container.firstVersion then
    throw (.unsupportedVersion version)
  let full : Bool := Container.fullVersion ≤ version
  let libraryVersion ← readHalf
  let versionNeeded ← if full then readHalf else pure 0
  if Container.currentVersion < versionNeeded then
    throw (.unsupportedVersion versionNeeded)
  let method ← readByte
  let level ← if full then readByte else pure 0
  let flags ← Reading.word cutShort
  if flags &&& Container.reservedMask ≠ 0 then
    throw (.reservedFlags (flags &&& Container.reservedMask))
  if flags &&& Container.multipartFlag ≠ 0 then
    throw (.unsupported "multipart streams")
  let filter ←
    if flags &&& Container.filterFlag ≠ 0 then
      some <$> Reading.word cutShort
    else
      pure none
  let mode ← Reading.word cutShort
  let time ← Reading.word cutShort
  let gmtDiff ←
    if full then Reading.word cutShort else pure 0
  let nameLength ← Reading.number cutShort 1
  let name ← Reading.exactly cutShort nameLength
  return {
    version := version
    libraryVersion := libraryVersion
    versionNeeded := versionNeeded
    method := method
    level := level
    flags := flags
    filter := filter
    mode := mode
    time := time
    gmtDiff := gmtDiff
    name := name
    extra := none }

/- Read an extra field and its length. -/
def readExtraField : Reading Bytes := do
  let length ← Reading.number cutShort 4
  if maxBlockSize < length then
    throw (.corruptFrame (.extraField length))
  Reading.exactly cutShort length

/- Read an extra field and the checksum of its bytes. -/
def readExtra
    (kind : Checksum) : Reading Bytes := do
  let (extra, bs) ← readExtraField.recorded
  checkSum kind bs
  return extra

/-
  Read a header from behind its magic number.  The checksums
  cover the bytes that were read since the magic number, and
  since the first checksum.
-/
def readAfterMagic : Reading Header := do
  let (header, bs) ← readFields.recorded
  let kind := header.checksumKind
  checkSum kind bs
  let extra ←
    if header.hasFlag Container.extraFlag then
      some <$> readExtra kind
    else
      pure none
  if header.filter.isSome then
    throw (.unsupported "header filters")
  return { header with extra := extra }

/- Read a header. -/
def read : Reading Header := do
  let found ← Reading.exactly (.truncated .magic) 9
  if found ≠ Container.magic then
    throw (.badMagic found)
  readAfterMagic

end Header

end SplitStream
