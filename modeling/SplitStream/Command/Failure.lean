import SplitStream.Error

/-
  This file defines the failures of commands: a cause, and
  what was being done when it arose.

  Key definitions include:
    * `Context`
    * `Failure`
    * `Failure.chain`
    * `Failure.report`
-/

------------------------------------------------------------
-- Contexts
------------------------------------------------------------

namespace SplitStream

/- What a command was doing when it failed. -/
inductive Context where
  | openingInput (path : String)
  | creatingOutput (path : String)
  | openingStream (path : String)
  | readingHeader (path : String)
  | removingIndex (path : String)
  | decoding (path : String)
  | indexing (path : String)
  | readingFrame (offset : Nat)
  deriving DecidableEq, Repr

namespace Context

/- The text of a context. -/
def text : Context → String
  | openingInput path =>
      "opening input file " ++ Text.quotePath path
  | creatingOutput path =>
      "creating output file " ++ Text.quotePath path
  | openingStream path =>
      "opening compressed file " ++ Text.quotePath path
  | readingHeader path =>
      "reading container header of " ++ Text.quotePath path
  | removingIndex path =>
      "removing stale index " ++ Text.quotePath path
  | decoding path => "decoding " ++ Text.quotePath path
  | indexing path => "indexing " ++ Text.quotePath path
  | readingFrame offset =>
      "reading frame header at offset " ++ toString offset

end Context

------------------------------------------------------------
-- Failures
------------------------------------------------------------

/-
  The failures of commands.  An error comes from the library
  or through an interface for bytes, which does not name the
  library around the failure of a device.
-/
inductive Failure where
  | library (error : Error)
  | device (error : Error)
  | blockBeyond (block total : Nat)
  | emptyIndex
  | during (context : Context) (cause : Failure)
  deriving DecidableEq, Repr

namespace Failure

/- The texts of a failure, from the outside to the cause. -/
def chain : Failure → List String
  | library (.io kind) => [(Error.io kind).message, kind.text]
  | library error => [error.message]
  | device (.io kind) => [kind.text]
  | device error => [error.message]
  | blockBeyond block total =>
      ["block index " ++ toString block ++
        " out of range (total " ++ toString total ++ ")"]
  | emptyIndex => ["index is empty"]
  | during context cause => context.text :: cause.chain

/- The causes below a failure, numbered if there are several. -/
def causeLines : List String → List String
  | [] => []
  | [cause] => ["", "Caused by:", "    " ++ cause]
  | causes =>
      ["", "Caused by:"] ++
        causes.zipIdx.map fun (cause, i) =>
          Numeral.padded ' ' 5 (toString i) ++ ": " ++ cause

/- The lines that report a failure. -/
def report
    (failure : Failure) : List String :=
  match failure.chain with
  | [] => []
  | first :: causes => ("Error: " ++ first) :: causeLines causes

end Failure

end SplitStream
