import SplitStream.Checksum.Selection
import SplitStream.Container.Header
import SplitStream.Text.Significand
import SplitStream.Text.Utf8

/-
  This file defines the texts in which commands report
  sizes, ratios, headers, tables and bytes.

  Key definitions include:
    * `Report.size`
    * `Report.ratio`
    * `Report.systemName`
    * `Report.checksumNames`
    * `Report.headerLines`
    * `Report.row`
    * `Report.dump`
-/

------------------------------------------------------------
-- Numbers
------------------------------------------------------------

namespace SplitStream

namespace Report

/- The units above the byte, each 1024 times the one before. -/
def units : List String :=
  ["KB", "MB", "GB", "TB"]

/- Go to larger units as long as there is one and it is reached. -/
def inUnit
    (unit : String)
    (a : Significand) : List String → Significand × String
  | [] => (a, unit)
  | larger :: rest =>
      if a.num < 1024 * a.den then
        (a, unit)
      else
        inUnit larger ⟨a.num, a.den * 1024⟩ rest

/-
  A number of bytes for a reader.  It is rounded to 53 bits
  first, and has two places in units above the byte.
-/
def size
    (n : Nat) : String :=
  if n < 1024 then
    toString n ++ " B"
  else
    let (a, unit) := inUnit "B" (.ofNat n) units
    a.fixed 2 ++ " " ++ unit

/- The ratio of two sizes; the second counts as one at least. -/
def ratio
    (plain packed : Nat) : String :=
  (Significand.divide (.ofNat plain) (.ofNat (max packed 1))).fixed
      2 ++ "x"

------------------------------------------------------------
-- Fields
------------------------------------------------------------

/- Fill a text up to `width` characters on its right. -/
def aligned
    (width : Nat)
    (text : String) : String :=
  text ++ String.ofList (List.replicate (width - text.length) ' ')

/- A line of a summary. -/
def summaryLine
    (label value : String) : String :=
  "  " ++ aligned 12 label ++ ": " ++ value

/- A line of a description. -/
def detailLine
    (label value : String) : String :=
  "  " ++ aligned 15 label ++ ": " ++ value

------------------------------------------------------------
-- Headers
------------------------------------------------------------

/- The name of the system that the flags of a header tell. -/
def systemName
    (flags : UInt32) : String :=
  match (flags >>> 24).toNat with
  | 0 => "fat"
  | 3 => "unix"
  | 11 => "ntfs"
  | _ => "other"

/- The checksums of a scope by name. -/
def checksumNames
    (selection : Selection)
    (scope : Checksum.Scope) : String :=
  match selection.kinds scope with
  | [] => "none"
  | kinds =>
      String.intercalate ", " (kinds.map fun kind => kind.name)

/- What is wrong with a list of checksums that names none. -/
def checksumListHelp
    (list : String) : String :=
  "invalid checksum list '" ++ list ++
    "'; use none, all, or adler32-d,adler32-c,crc32-d,crc32-c"

/- The lines that describe a header. -/
def headerLines
    (header : Header)
    (codec : String) : List String :=
  let selection := Selection.ofFlags header.flags
  [ detailLine "framing" "container",
    detailLine "version"
      (Numeral.hex 4 header.version.toNat ++ " (needs " ++
        Numeral.hex 4 header.versionNeeded.toNat ++ ")"),
    detailLine "library"
      (Numeral.hex 4 header.libraryVersion.toNat),
    detailLine "codec"
      (codec ++ " (method=" ++
        Numeral.hex 2 header.method.toNat ++ ", level=" ++
        toString header.level.toNat ++ ")"),
    detailLine "flags"
      (Numeral.hex 8 header.flags.toNat ++ " (os=" ++
        systemName header.flags ++ ")"),
    detailLine "header check" header.checksumKind.name,
    detailLine "d-checksums" (checksumNames selection .plain),
    detailLine "c-checksums" (checksumNames selection .packed),
    detailLine "mode" (Numeral.octal header.mode.toNat),
    detailLine "mtime" (toString header.time.toNat) ] ++
  (if header.name.isEmpty then []
    else [detailLine "name" (Utf8.toText header.name)]) ++
  [ detailLine "header length"
      (toString header.encodedLength ++ " B") ]

------------------------------------------------------------
-- Tables
------------------------------------------------------------

/- A row of five columns, each text at the right of its column. -/
def row
    (block offset packed plain stored : String) : String :=
  "  " ++ Numeral.padded ' ' 8 block ++
  "  " ++ Numeral.padded ' ' 14 offset ++
  "  " ++ Numeral.padded ' ' 12 packed ++
  "  " ++ Numeral.padded ' ' 12 plain ++
  "  " ++ Numeral.padded ' ' 8 stored

/- The lines above a table of frames. -/
def tableHead : List String :=
  [ "",
    row "block" "file offset" "compressed" "raw" "stored",
    "  " ++ String.ofList (List.replicate 62 '-') ]

------------------------------------------------------------
-- Bytes
------------------------------------------------------------

/- The character of a byte if it is printable ASCII, else a dot. -/
def glyph
    (b : UInt8) : Char :=
  if 0x20 ≤ b ∧ b < 0x7F then Char.ofNat b.toNat else '.'

/- A line of a dump: the offset, the bytes, and their glyphs. -/
def dumpLine
    (offset : Nat)
    (bs : Bytes) : String :=
  "  " ++ Numeral.hexDigits 4 offset ++ "  " ++
    aligned 48
      (String.join
        (bs.map fun b => Numeral.hexDigits 2 b.toNat ++ " ")) ++
    "  |" ++ String.ofList (bs.map glyph) ++ "|"

/- The lines of a dump, sixteen bytes a line. -/
def dumpLines
    (bs : Bytes) : List String :=
  (bs.pieces 16).zipIdx.map fun (piece, i) =>
    dumpLine (i * 16) piece

/- The number of bytes of a block that a dump shows. -/
def dumpLimit : Nat :=
  256

/- The lines that show a block. -/
def dump
    (block : Nat)
    (bs : Bytes) : List String :=
  let shown := bs.take dumpLimit
  [ "--- block " ++ toString block ++ " (" ++
      toString bs.length ++ " bytes, first " ++
      toString shown.length ++ " shown) ---" ] ++
  dumpLines shown ++
  (if dumpLimit < bs.length then
    [ "  ... (" ++ toString (bs.length - dumpLimit) ++
        " bytes remaining not shown)" ]
  else [])

end Report

end SplitStream
