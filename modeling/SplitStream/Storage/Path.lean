import SplitStream.Bytes.Basic
import SplitStream.Error

/-
  This file defines paths in a directory tree.  They count
  from the directory in which a program works, or from the
  root.

  Key definitions include:
    * `Path`
    * `Path.parse`
    * `Path.descend`
    * `Path.ancestors`
-/

------------------------------------------------------------
-- Paths
------------------------------------------------------------

namespace SplitStream

/-
  The steps to an entry.  A path that ends in a slash or in
  dots stands for a directory.
-/
structure Path where
  fromRoot : Bool
  steps : List String
  isDirectory : Bool
  deriving DecidableEq, Repr

namespace Path

/- The pieces of a text between its slashes. -/
def pieces : List Char → List (List Char)
  | [] => [[]]
  | c :: cs =>
      if c = '/' then
        [] :: pieces cs
      else
        match pieces cs with
        | [] => [[c]]
        | piece :: rest => (c :: piece) :: rest

/- The step leads to no entry of its own. -/
def isDots
    (step : String) : Bool :=
  step = "." || step = ".."

/- The name of the root, which no other entry can have. -/
def root : String :=
  "/"

/-
  Go on by one step.  One dot stays, two dots go up, but not
  above the root or the working directory.  Names are kept
  last first.
-/
def descend
    (lastFirst : List String)
    (step : String) : List String :=
  if step = "." then lastFirst
  else if step = ".." then
    if lastFirst = [root] then lastFirst else lastFirst.drop 1
  else step :: lastFirst

/- The longest name that a directory can hold. -/
def maxName : Nat :=
  255

/- The longest text that stands for a path. -/
def maxText : Nat :=
  4095

/-
  The path that a text stands for.  A text must not hold a
  zero or be too long, and an empty text stands for nothing.
-/
def parse
    (text : String) : Except IoKind Path :=
  if text.toList.contains '\x00' then
    .error .zeroInName
  else if text = "" then
    .error .notFound
  else if maxText < text.utf8ByteSize then
    .error .invalidName
  else
    let pieces := (pieces text.toList).map String.ofList
    .ok
      { fromRoot := text.toList.head? = some '/'
        steps := pieces.filter fun piece => piece ≠ ""
        isDirectory :=
          match pieces.getLast? with
          | none => true
          | some piece => piece = "" || isDots piece }

/-
  The texts of the directories on the way to the path of a
  text, the nearest one first.  `lastFirst` holds the
  characters before those that are looked at.
-/
def ancestorsFrom
    (found : List String)
    (lastFirst : List Char) : List Char → List String
  | [] => found
  | c :: cs =>
      let here :=
        if c = '/' then
          String.ofList (c :: lastFirst).reverse :: found
        else
          found
      ancestorsFrom here (c :: lastFirst) cs

/- The directories on the way to a path, the farthest one first. -/
def ancestors
    (text : String) : List String :=
  (ancestorsFrom [] [] text.toList).reverse

end Path

end SplitStream
