import Spreadsheet.Text.Basic

/-!
# Script errors

Why a script has no value. Only the errors of the program's own functions carry a message.
-/

namespace Spreadsheet.Script

inductive Error
  /-- The text is no script. -/
  | malformed
  | unknownName (n : Text)
  | unknownFunction (f : Text)
  /-- A function of the program was called with a number of arguments that it does not take. -/
  | badArguments (f : Text)
  /-- A function of the program got a value of this kind where it needs a number. -/
  | notNumber (kind : Text)
  /-- A function of the program got no numbers where it needs one. -/
  | emptySet (f : Text)
  /-- An operator, index or condition does not go with its operands. -/
  | mismatch
  | divisionByZero
  | overflow
  | outOfRange
  /-- A text grew beyond the longest text. -/
  | tooLong
  /-- A loop that does not come to an end by itself. -/
  | endless
  deriving DecidableEq, Repr

namespace Error

/-- The message of an error of the program's own functions. -/
def message? : Error → Option Text
  | notNumber kind => some ("expected a number, got ".toList ++ kind)
  | emptySet f => some (f ++ " of an empty set".toList)
  | _ => none

end Error

end Spreadsheet.Script
