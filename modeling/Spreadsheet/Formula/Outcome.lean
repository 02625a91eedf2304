import Spreadsheet.Cell
import Spreadsheet.Formula.Generation
import Spreadsheet.Formula.Literal
import Spreadsheet.Script.Error

/-!
# Outcomes

What a cell evaluates to, and why a formula may have no value. An error is shown in its cell by a
sentinel.
-/

namespace Spreadsheet.Formula

/-- Why a formula has no value. -/
inductive Error
  | script (e : Script.Error)
  /-- The cell is being evaluated already. -/
  | circular (c : Cell)
  /-- The chain of formulas that leads to the cell is too long. -/
  | tooDeep (c : Cell)
  /-- The token names no cell of the grid. -/
  | outside (token : Text)
  /-- A generation call without exactly a prompt and a model. -/
  | generationArguments
  | generationUnavailable
  /-- The formula refers to a cell whose content is to be generated. -/
  | pending
  deriving DecidableEq, Repr

/-- The longest chain of formulas that an evaluation follows. -/
def maxDepth : Nat := 64

def pendingSentinel : Text := "#PENDING!".toList

inductive Error.Kind
  | parse | runtime | reference | argument | unavailable | pending
  deriving DecidableEq, Repr

namespace Error

def kind : Error → Kind
  | script .malformed => .parse
  | script (.badArguments _) => .argument
  | script _ => .runtime
  | circular _ | tooDeep _ | outside _ => .reference
  | generationArguments => .argument
  | generationUnavailable => .unavailable
  | pending => .pending

/-- The function that was called with bad arguments. -/
def function? : Error → Option Text
  | script (.badArguments f) => some f
  | generationArguments => some generationName
  | _ => none

/-- What a cell shows for an error. -/
def sentinel (e : Error) : Text :=
  match e.kind with
  | .parse | .runtime => "#ERROR!".toList
  | .reference => "#REF!".toList
  | .argument => "#ERROR: Invalid ".toList ++ e.function?.getD [] ++ " arguments".toList
  | .unavailable => "#ERROR: Generation unavailable".toList
  | .pending => pendingSentinel

/-- The message of an error. Errors of the script language have none. -/
def message? : Error → Option Text
  | script (.badArguments f) => some ("invalid ".toList ++ f ++ " arguments".toList)
  | script e => e.message?
  | circular c => some ("invalid reference: circular reference through ".toList ++ c.name)
  | tooDeep c =>
    some ("invalid reference: reference chain deeper than ".toList ++ Text.decimal maxDepth ++
      " at ".toList ++ c.name)
  | outside token => some ("invalid reference: ".toList ++ token ++ " is outside the grid".toList)
  | generationArguments => some ("invalid ".toList ++ generationName ++ " arguments".toList)
  | generationUnavailable => some "content generation unavailable".toList
  | pending => some "content generation pending".toList

end Error

/-- What a cell evaluates to. -/
inductive Outcome
  /-- Content that is no formula. -/
  | text (t : Text)
  | value (v : Script.Value)
  /-- A formula that asks for generated content. -/
  | generate (r : Request)
  | error (e : Error)

namespace Outcome

def display : Outcome → Text
  | text t => t
  | value v => v.display
  | generate _ => pendingSentinel
  | error e => e.sentinel

def isError : Outcome → Bool
  | error _ => true
  | _ => false

end Outcome

end Spreadsheet.Formula
