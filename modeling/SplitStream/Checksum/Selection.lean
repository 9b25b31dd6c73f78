import SplitStream.Checksum.Basic
import SplitStream.Text.Blank

/-
  This file defines selections of checksums: which kinds a
  stream records over which data.  A selection is held in
  four flag bits of a container header, and is named on the
  command line by a comma-separated list.

  Key definitions include:
    * `Selection`
    * `Selection.ofFlags`
    * `Selection.toFlags`
    * `Selection.kinds`
    * `Selection.union`
    * `Selection.ofItem?`
    * `Selection.ofList?`
-/

------------------------------------------------------------
-- Selections
------------------------------------------------------------

namespace SplitStream

/-
  The recorded checksums: Adler-32 and CRC-32 of the plain
  block, Adler-32 and CRC-32 of the packed payload.
-/
structure Selection where
  plainAdler : Bool
  plainCrc : Bool
  packedAdler : Bool
  packedCrc : Bool
  deriving DecidableEq, Repr

namespace Selection

/- No checksum. -/
def empty : Selection where
  plainAdler := false
  plainCrc := false
  packedAdler := false
  packedCrc := false

/- Every checksum. -/
def full : Selection where
  plainAdler := true
  plainCrc := true
  packedAdler := true
  packedCrc := true

/- The checksums of both selections. -/
def union
    (a b : Selection) : Selection where
  plainAdler := a.plainAdler || b.plainAdler
  plainCrc := a.plainCrc || b.plainCrc
  packedAdler := a.packedAdler || b.packedAdler
  packedCrc := a.packedCrc || b.packedCrc

/-
  The kinds recorded over a scope, in the order in which
  their values stand in a frame.
-/
def kinds
    (selection : Selection)
    (scope : Checksum.Scope) : List Checksum :=
  let (adler, crc) :=
    match scope with
    | .plain => (selection.plainAdler, selection.plainCrc)
    | .packed => (selection.packedAdler, selection.packedCrc)
  (if adler then [Checksum.adler32] else []) ++
    (if crc then [Checksum.crc32] else [])

/- The number of checksums recorded over a scope. -/
def count
    (selection : Selection)
    (scope : Checksum.Scope) : Nat :=
  (selection.kinds scope).length

------------------------------------------------------------
-- Flag Bits
------------------------------------------------------------

/- The flag bit of Adler-32 over plain data. -/
def plainAdlerFlag : UInt32 :=
  0x00000001

/- The flag bit of Adler-32 over packed data. -/
def packedAdlerFlag : UInt32 :=
  0x00000002

/- The flag bit of CRC-32 over plain data. -/
def plainCrcFlag : UInt32 :=
  0x00000100

/- The flag bit of CRC-32 over packed data. -/
def packedCrcFlag : UInt32 :=
  0x00000200

/- The selection held in the flags of a header. -/
def ofFlags
    (flags : UInt32) : Selection where
  plainAdler := flags &&& plainAdlerFlag != 0
  plainCrc := flags &&& plainCrcFlag != 0
  packedAdler := flags &&& packedAdlerFlag != 0
  packedCrc := flags &&& packedCrcFlag != 0

/- The flags that hold a selection. -/
def toFlags
    (selection : Selection) : UInt32 :=
  (if selection.plainAdler then plainAdlerFlag else 0) |||
  (if selection.plainCrc then plainCrcFlag else 0) |||
  (if selection.packedAdler then packedAdlerFlag else 0) |||
  (if selection.packedCrc then packedCrcFlag else 0)

/- The flags of a selection hold that selection. -/
@[simp]
theorem ofFlags_toFlags
    (selection : Selection) :
    ofFlags selection.toFlags = selection := by
  rcases selection with ⟨_ | _, _ | _, _ | _, _ | _⟩ <;> decide

------------------------------------------------------------
-- Lists
------------------------------------------------------------

/- The pieces of a text between its commas. -/
def items : List Char → List (List Char)
  | [] => [[]]
  | c :: cs =>
      if c = ',' then
        [] :: items cs
      else
        match items cs with
        | [] => [[c]]
        | item :: rest => (c :: item) :: rest

/-
  The selection that one list item adds.  Blanks around the
  item and the case of ASCII letters do not matter; an item
  of blanks alone adds nothing.
-/
def ofItem?
    (item : List Char) : Option Selection :=
  match String.ofList ((Text.trimBlanks item).map Char.toLower) with
  | "" => some empty
  | "none" => some empty
  | "all" => some full
  | "adler32-d" => some { empty with plainAdler := true }
  | "adler32-c" => some { empty with packedAdler := true }
  | "crc32-d" => some { empty with plainCrc := true }
  | "crc32-c" => some { empty with packedCrc := true }
  | _ => none

/- The union of the selections that all items of a list add. -/
def ofItems? : List (List Char) → Option Selection
  | [] => some empty
  | item :: rest => do
      let first ← ofItem? item
      let others ← ofItems? rest
      return first.union others

/- The selection that a comma-separated list names. -/
def ofList?
    (list : String) : Option Selection :=
  ofItems? (items list.toList)

end Selection

end SplitStream
