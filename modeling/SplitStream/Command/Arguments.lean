import SplitStream.Command.Draft

/-
  This file defines how arguments state a request.

  Arguments are taken one by one.  An option or an operand is
  held back until the next one comes, so an argument that is
  unknown is reported before a value that is invalid.

  Key definitions include:
    * `Argument`
    * `Statement`
    * `Statement.take`
    * `Request.ofArguments`
-/

------------------------------------------------------------
-- Arguments
------------------------------------------------------------

namespace SplitStream

/- The forms of an argument. -/
inductive Argument where
  | separator
  | long (name : String) (value : Option String)
  | short (letters : List Char)
  | word

namespace Argument

/-
  The characters before the first equals sign, and those
  behind it.
-/
def splitValue : List Char → List Char × Option (List Char)
  | [] => ([], none)
  | c :: cs =>
      if c = '=' then
        ([], some cs)
      else
        let (name, value) := splitValue cs
        (c :: name, value)

/- The form of an argument.  A single dash is a word. -/
def ofChars : List Char → Argument
  | ['-', '-'] => separator
  | '-' :: '-' :: cs =>
      let (name, value) := splitValue cs
      long (String.ofList name) (value.map String.ofList)
  | '-' :: c :: cs => short (c :: cs)
  | _ => word

end Argument

------------------------------------------------------------
-- Statements
------------------------------------------------------------

/-
  What arguments have stated so far.  `held` is the option or
  operand that is held back, with its value if that has come;
  behind a separator all arguments are operands.
-/
structure Statement where
  rules : List OptionRule
  capacity : Nat
  draft : Draft
  held : Option (Slot × Option String)
  operandsOnly : Bool

namespace Statement

/- The statement before the first argument. -/
def blank
    (rules : List OptionRule)
    (capacity : Nat) : Statement where
  rules := rules
  capacity := capacity
  draft := .blank
  held := none
  operandsOnly := false

/- Accept what is held back. -/
def settle
    (statement : Statement) : Except Misstatement Statement :=
  match statement.held with
  | none => .ok statement
  | some (slot, value) => do
      let draft ← statement.draft.accept slot value
      return { statement with draft := draft, held := none }

/- Hold an option or an operand back. -/
def hold
    (statement : Statement)
    (slot : Slot)
    (value : Option String) : Except Misstatement Statement := do
  let statement ← statement.settle
  return { statement with held := some (slot, value) }

/- Accept an option at once. -/
def settleOption
    (statement : Statement)
    (slot : Slot)
    (value : Option String) : Except Misstatement Statement := do
  (← statement.hold slot value).settle

/- The operands taken, also one that is held back. -/
def operandCount
    (statement : Statement) : Nat :=
  statement.draft.operands.length +
    match statement.held with
    | some (.operand, _) => 1
    | _ => 0

/- Take an operand, if there is room for one. -/
def takeOperand
    (statement : Statement)
    (text : String) : Except Misstatement Statement :=
  if statement.operandCount < statement.capacity then
    statement.hold .operand (some text)
  else
    .error .argumentUnknown

/- Take an option by its long name. -/
def takeLong
    (statement : Statement)
    (name : String)
    (value : Option String) : Except Misstatement Statement :=
  match statement.rules.find? fun rule => rule.long = name with
  | none => .error .argumentUnknown
  | some rule =>
    match rule.takesValue, value with
    | true, none => statement.hold rule.slot none
    | true, some text => statement.settleOption rule.slot text
    | false, none => statement.settleOption rule.slot none
    | false, some _ => .error .valueUnwanted

/-
  Take options by their letters.  The letters behind an
  option with a value are that value; an equals sign before
  it does not belong to it.
-/
def takeShort
    (statement : Statement) :
    List Char → Except Misstatement Statement
  | [] => .ok statement
  | c :: cs =>
      match statement.rules.find? fun rule =>
          rule.short = some c with
      | none => .error .argumentUnknown
      | some rule =>
        if rule.takesValue then
          match cs with
          | [] => statement.hold rule.slot none
          | '=' :: value =>
              statement.settleOption rule.slot
                (String.ofList value)
          | value =>
              statement.settleOption rule.slot
                (String.ofList value)
        else do
          takeShort (← statement.settleOption rule.slot none) cs

/- Take a word: the value that is waited for, or an operand. -/
def takeWord
    (statement : Statement)
    (text : String) : Except Misstatement Statement :=
  match statement.held with
  | some (slot, none) =>
      .ok { statement with held := some (slot, some text) }
  | _ => statement.takeOperand text

/- Take an argument. -/
def take
    (statement : Statement)
    (text : String) : Except Misstatement Statement :=
  if statement.operandsOnly then
    statement.takeOperand text
  else
    match Argument.ofChars text.toList with
    | .separator => .ok { statement with operandsOnly := true }
    | .long name value => statement.takeLong name value
    | .short letters => statement.takeShort letters
    | .word => statement.takeWord text

end Statement

------------------------------------------------------------
-- Requests
------------------------------------------------------------

namespace Request

/- The request that the arguments behind a verb state. -/
def ofOperands
    (environment : Environment)
    (verb : Verb)
    (arguments : List String) : Except Misstatement Request := do
  let blank :=
    Statement.blank (OptionRule.behind verb) verb.operands
  let statement ← arguments.foldlM Statement.take blank
  let statement ← statement.settle
  let draft ← statement.draft.acceptSettings verb environment
  draft.request verb

/- What the arguments behind the word `help` ask for. -/
def helpOn : List String → Misstatement
  | [] => .helpWanted
  | [topic] =>
      if topic = "help" ∨ (Verb.ofWord? topic).isSome then
        .helpWanted
      else
        .verbUnknown
  | _ => .verbUnknown

/-
  The request that arguments state.  Before the verb there
  are options only; behind a separator a verb is an argument
  in the wrong place.
-/
def ofStatement
    (environment : Environment)
    (statement : Statement) :
    List String → Except Misstatement Request
  | [] =>
      if statement.draft.flags.isEmpty then
        .error .nothingStated
      else
        .error .verbMissing
  | text :: rest =>
      if statement.operandsOnly then
        if text = "help" ∨ (Verb.ofWord? text).isSome then
          .error .argumentUnknown
        else
          .error .verbUnknown
      else if text = "help" then
        .error (helpOn rest)
      else
        match Verb.ofWord? text, Argument.ofChars text.toList with
        | some verb, _ => ofOperands environment verb rest
        | none, .word => .error .verbUnknown
        | none, _ => do
            ofStatement environment (← statement.take text) rest

/- The request that the arguments of a command line state. -/
def ofArguments
    (environment : Environment)
    (arguments : List String) : Except Misstatement Request :=
  ofStatement environment
    (.blank OptionRule.beforeVerb 0) arguments

end Request

end SplitStream
