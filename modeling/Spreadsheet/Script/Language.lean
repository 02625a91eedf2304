import Spreadsheet.Script.Eval

/-!
# Script languages

What formulas are evaluated with: a `Language` finds the tokens of a script and runs it. Formulas only ask
for what a script comes to, so any language will do; `language` is the one of the scripts here.
-/

namespace Spreadsheet.Script

/-- Finds the tokens of scripts, and what a script comes to. -/
structure Language extends Lexer where
  run : Text → Except Error Value

/-- The language of the scripts here, given the random numbers that a script draws. -/
def language (draws : Nat → Float := fun _ => 0.5) : Language where
  toLexer := lexer
  run script := run script draws

end Spreadsheet.Script
