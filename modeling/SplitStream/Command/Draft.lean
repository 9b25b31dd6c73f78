import SplitStream.Command.Request
import SplitStream.Text.Digits

/-
  This file defines drafts, requests of which only some parts
  are stated so far, and the options that state them.

  Key definitions include:
    * `Slot`
    * `OptionRule`
    * `Draft`
    * `Draft.accept`
    * `Draft.acceptSetting`
    * `Draft.request`
-/

------------------------------------------------------------
-- Options
------------------------------------------------------------

namespace SplitStream

/- The parts of a request that an argument states. -/
inductive Slot where
  | operand
  | codec
  | level
  | blockSize
  | raw
  | index
  | checksums
  | blocks
  | block
  | output
  | verbose
  | help
  | version
  deriving DecidableEq, Repr

/- An option: its two names, and whether a value belongs to it. -/
structure OptionRule where
  slot : Slot
  long : String
  short : Option Char
  takesValue : Bool

namespace OptionRule

/- An option with a value. -/
def valued
    (slot : Slot)
    (long : String)
    (short : Option Char) : OptionRule where
  slot := slot
  long := long
  short := short
  takesValue := true

/- An option without a value. -/
def flag
    (slot : Slot)
    (long : String)
    (short : Option Char) : OptionRule where
  slot := slot
  long := long
  short := short
  takesValue := false

/- The options that stand everywhere. -/
def general : List OptionRule :=
  [ flag .verbose "verbose" (some 'v'),
    flag .help "help" (some 'h') ]

/- The options that stand before the verb. -/
def beforeVerb : List OptionRule :=
  flag .version "version" (some 'V') :: general

/- The choice of a codec. -/
def codecChoice : OptionRule :=
  valued .codec "codec" (some 'c')

/- The options that stand behind a verb. -/
def behind : Verb → List OptionRule
  | .compress =>
      [ codecChoice,
        valued .level "level" none,
        valued .blockSize "block-size" (some 'b'),
        flag .raw "raw" none,
        flag .index "index" none,
        valued .checksums "checksums" none ] ++ general
  | .decompress => codecChoice :: general
  | .index => general
  | .inspect => flag .blocks "blocks" none :: general
  | .readBlock =>
      [ valued .block "index" (some 'i'),
        codecChoice,
        valued .output "output" (some 'o') ] ++ general

end OptionRule

namespace Verb

/- The number of operands of a verb. -/
def operands : Verb → Nat
  | compress => 2
  | decompress => 2
  | index => 1
  | inspect => 1
  | readBlock => 1

end Verb

------------------------------------------------------------
-- Values
------------------------------------------------------------

namespace Value

/- A value that passes a test. -/
def valid
    {α : Type}
    (value : Option α) : Except Misstatement α :=
  match value with
  | some a => .ok a
  | none => .error .valueInvalid

/- A path, which is not empty. -/
def path
    (text : String) : Except Misstatement String :=
  if text = "" then .error .valueMissing else .ok text

/- A codec by its name. -/
def codec
    (text : String) : Except Misstatement Bundled :=
  valid (Bundled.ofName text).toOption

/- A number of 32 bits with a sign. -/
def level
    (text : String) : Except Misstatement Int :=
  valid (Digits.integer? (-0x80000000) 0x7fffffff text)

/- A number of 64 bits. -/
def count
    (text : String) : Except Misstatement Nat :=
  valid (Digits.natural? 0xffffffffffffffff text)

/- A list of checksums. -/
def checksums
    (text : String) : Except Misstatement Selection :=
  valid (Selection.ofList? text)

end Value

------------------------------------------------------------
-- Drafts
------------------------------------------------------------

/- The parts of a request that are stated so far. -/
structure Draft where
  operands : List String
  flags : List Slot
  codec : Option Bundled
  level : Option Int
  blockSize : Option Nat
  checksums : Option Selection
  block : Option Nat
  output : Option String

namespace Draft

/- The draft of which nothing is stated. -/
def blank : Draft where
  operands := []
  flags := []
  codec := none
  level := none
  blockSize := none
  checksums := none
  block := none
  output := none

/- A part with a value is stated. -/
def states
    (draft : Draft) : Slot → Bool
  | .codec => draft.codec.isSome
  | .level => draft.level.isSome
  | .blockSize => draft.blockSize.isSome
  | .checksums => draft.checksums.isSome
  | .block => draft.block.isSome
  | .output => draft.output.isSome
  | _ => false

/- State a part by the text of its value. -/
def acceptValue
    (draft : Draft)
    (slot : Slot)
    (text : String) : Except Misstatement Draft :=
  match slot with
  | .operand => do
      let path ← Value.path text
      return { draft with operands := draft.operands ++ [path] }
  | .codec => do
      return { draft with codec := some (← Value.codec text) }
  | .level => do
      return { draft with level := some (← Value.level text) }
  | .blockSize => do
      return { draft with blockSize := some (← Value.count text) }
  | .checksums => do
      return {
        draft with checksums := some (← Value.checksums text) }
  | .block => do
      return { draft with block := some (← Value.count text) }
  | .output => do
      return { draft with output := some (← Value.path text) }
  | _ => .ok draft

/-
  State a part by an argument.  A value must be there where
  one belongs, and no part is stated twice; only then is the
  value looked at.
-/
def accept
    (draft : Draft)
    (slot : Slot)
    (value : Option String) : Except Misstatement Draft :=
  match slot, value with
  | .help, _ => .error .helpWanted
  | .version, _ => .error .versionWanted
  | .verbose, _ =>
      .ok { draft with flags := .verbose :: draft.flags }
  | .raw, _ | .index, _ | .blocks, _ =>
      if slot ∈ draft.flags then
        .error .argumentRepeated
      else
        .ok { draft with flags := slot :: draft.flags }
  | _, none => .error .valueMissing
  | _, some text =>
      if draft.states slot then
        .error .argumentRepeated
      else
        draft.acceptValue slot text

/- State a part by a setting, unless an argument has stated it. -/
def acceptSetting
    (draft : Draft)
    (slot : Slot)
    (setting : Option String) : Except Misstatement Draft :=
  match setting with
  | none => .ok draft
  | some text =>
      if draft.states slot then
        .ok draft
      else
        draft.acceptValue slot text

/- State by settings what the options of a verb leave open. -/
def acceptSettings
    (draft : Draft)
    (verb : Verb)
    (environment : Environment) : Except Misstatement Draft :=
  match verb with
  | .compress => do
      let draft ← draft.acceptSetting .codec environment.codec
      draft.acceptSetting .blockSize environment.blockSize
  | .decompress | .readBlock =>
      draft.acceptSetting .codec environment.codec
  | .index | .inspect => .ok draft

------------------------------------------------------------
-- Completion
------------------------------------------------------------

/- The codec, which is LZ4 if none is stated. -/
def codecOrStandard
    (draft : Draft) : Bundled :=
  draft.codec.getD .lz4

/- The request of a draft of which all that is needed is stated. -/
def request
    (draft : Draft)
    (verb : Verb) : Except Misstatement Request :=
  match verb, draft.operands with
  | .compress, [input, output] =>
      .ok (.compress {
        input := input
        output := output
        codec := draft.codecOrStandard
        level := draft.level
        blockSize := draft.blockSize.getD defaultBlockSize
        raw := draft.flags.contains .raw
        index := draft.flags.contains .index
        checksums := draft.checksums })
  | .decompress, [input, output] =>
      .ok (.decompress {
        input := input
        output := output
        codec := draft.codecOrStandard })
  | .index, [file] => .ok (.index file)
  | .inspect, [file] =>
      .ok (.inspect {
        file := file
        blocks := draft.flags.contains .blocks })
  | .readBlock, [file] =>
      match draft.block with
      | none => .error .argumentMissing
      | some block =>
        .ok (.readBlock {
          file := file
          block := block
          codec := draft.codecOrStandard
          output := draft.output })
  | _, _ => .error .argumentMissing

end Draft

end SplitStream
