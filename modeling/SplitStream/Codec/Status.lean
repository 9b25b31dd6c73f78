/-
  This file defines the statuses with which a codec refuses
  a block, their codes and their texts.

  Key definitions include:
    * `CodecStatus`
    * `CodecStatus.code`
    * `CodecStatus.ofCode`
    * `CodecStatus.text`

  Every status is found again by its code:
    * `CodecStatus.code_ofCode`
-/

------------------------------------------------------------
-- Statuses
------------------------------------------------------------

namespace SplitStream

/- The reason for which a codec refuses a block. -/
inductive CodecStatus where
  | failed
  | outOfMemory
  | notCompressible
  | inputOverrun
  | outputOverrun
  | lookbehindOverrun
  | endNotFound
  | inputNotConsumed
  | other (code : Int)
  deriving DecidableEq, Repr

namespace CodecStatus

/- The number of a status. -/
def code : CodecStatus → Int
  | failed => -1
  | outOfMemory => -2
  | notCompressible => -3
  | inputOverrun => -4
  | outputOverrun => -5
  | lookbehindOverrun => -6
  | endNotFound => -7
  | inputNotConsumed => -8
  | other n => n

/- The status with a given number. -/
def ofCode : Int → CodecStatus
  | -1 => failed
  | -2 => outOfMemory
  | -3 => notCompressible
  | -4 => inputOverrun
  | -5 => outputOverrun
  | -6 => lookbehindOverrun
  | -7 => endNotFound
  | -8 => inputNotConsumed
  | n => other n

/- The status found by a number has that number. -/
@[simp]
theorem code_ofCode
    (n : Int) :
    (ofCode n).code = n := by
  unfold ofCode
  split <;> rfl

/- The text of a status for a reader. -/
def text : CodecStatus → String
  | failed => "Error"
  | outOfMemory => "Out of memory"
  | notCompressible => "Not compressible"
  | inputOverrun => "Input overrun"
  | outputOverrun => "Output overrun"
  | lookbehindOverrun => "Lookbehind overrun"
  | endNotFound => "EOF not found"
  | inputNotConsumed => "Input not consumed"
  | other n => "Unknown-" ++ toString n

/- The label of a status beside its number. -/
def label : CodecStatus → String
  | failed => "Error"
  | outOfMemory => "OutOfMemory"
  | notCompressible => "NotCompressible"
  | inputOverrun => "InputOverrun"
  | outputOverrun => "OutputOverrun"
  | lookbehindOverrun => "LookbehindOverrun"
  | endNotFound => "EofNotFound"
  | inputNotConsumed => "InputNotConsumed"
  | other n => "Other(" ++ toString n ++ ")"

end CodecStatus

end SplitStream
