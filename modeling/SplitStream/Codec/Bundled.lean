import SplitStream.Codec.Stored
import SplitStream.Error

/-
  This file defines the bundled codecs and how they are
  found: by the method byte of a container header, or by a
  name.  Those of LZ4 and Zstandard leave their blocks to the
  engines of these formats.

  Key definitions include:
    * `Codec.lz4`
    * `Codec.zstd`
    * `Bundled`
    * `Bundled.ofMethod`
    * `Bundled.ofName`
    * `Bundled.codec`
-/

------------------------------------------------------------
-- LZ4
------------------------------------------------------------

namespace SplitStream

/- The LZ4 codec. -/
def Codec.lz4
    [Engines] : Codec where
  method := 0x41
  level := 1
  name := "lz4"
  overhead := fun n => Engines.lz4.bound n - n
  compress := Engines.lz4.pack ()
  decompress := Engines.lz4.unpack

------------------------------------------------------------
-- Zstandard
------------------------------------------------------------

namespace Zstd

/- The level of a codec that is given none. -/
def defaultLevel : Int :=
  3

/- A level as the byte of a header, clamped to its range. -/
def levelByte
    (level : Int) : UInt8 :=
  UInt8.ofNat (min level.toNat 255)

end Zstd

/- The Zstandard codec with a given level. -/
def Codec.zstd
    [Engines]
    (level : Int) : Codec where
  method := 0x42
  level := Zstd.levelByte level
  name := "zstd"
  overhead := fun n => Engines.zstd.bound n - n
  compress := Engines.zstd.pack level
  decompress := Engines.zstd.unpack
  describe := fun status => "zstd: " ++ status.text

------------------------------------------------------------
-- Bundled Codecs
------------------------------------------------------------

/- The codecs that come with the library. -/
inductive Bundled where
  | stored
  | lz4
  | zstd
  deriving DecidableEq, Repr

namespace Bundled

/-
  The codec itself.  Only Zstandard takes note of the level.
-/
def codec
    [Engines]
    (kind : Bundled)
    (level : Option Int) : Codec :=
  match kind with
  | stored => .stored
  | lz4 => .lz4
  | zstd => .zstd (level.getD Zstd.defaultLevel)

/- The name of a codec. -/
def name : Bundled → String
  | stored => "stored"
  | lz4 => "lz4"
  | zstd => "zstd"

/- The method byte of a codec. -/
def method : Bundled → UInt8
  | stored => 0x40
  | lz4 => 0x41
  | zstd => 0x42

/-
  The codec of a method byte.  The methods 1 to 3 are known
  by name only.
-/
def ofMethod
    (method : UInt8) : Except Error Bundled :=
  if method = 0x40 then .ok stored
  else if method = 0x41 then .ok lz4
  else if method = 0x42 then .ok zstd
  else if 1 ≤ method ∧ method ≤ 3 then
    .error (.unsupported "LZO methods need an external codec")
  else
    .error (.unknownMethod method)

/-
  The codec of a name.  The case of ASCII letters does not
  matter.
-/
def ofName
    (name : String) : Except Error Bundled :=
  match String.ofList (name.toList.map Char.toLower) with
  | "stored" | "none" | "passthrough" => .ok stored
  | "lz4" => .ok lz4
  | "zstd" => .ok zstd
  | lower => .error (.misuse (.unknownCodec lower))

/- The codec of a method byte with its default level. -/
def codecOfMethod
    [Engines]
    (method : UInt8) : Except Error Codec :=
  (ofMethod method).map fun kind => kind.codec none

end Bundled

end SplitStream
