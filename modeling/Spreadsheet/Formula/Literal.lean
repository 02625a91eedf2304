import Spreadsheet.Text.Blank
import Spreadsheet.Text.Quoted
import Spreadsheet.Number.Read
import Spreadsheet.Script.Value

/-!
# Values in cells

How a value is shown in a cell (`display`), how it is written into a formula that refers to it
(`literal`), and what value a raw text has that is no formula (`ofRaw`). A map with a field `value` and
an array of one item stand for that value alone.
-/

namespace Spreadsheet.Script.Value

/-- The field of a map that stands for the whole map. -/
def mainKey : Text := "value".toList

mutual

/-- The text that a cell shows for a value. -/
def display : Value → Text
  | unit => []
  | bool b => if b then "TRUE".toList else "FALSE".toList
  | int n => Text.integer n
  | float x => NumberFormat.display.write x
  | char c => [c]
  | text t => t
  | array [v] => display v
  | array items => Text.join [',', ' '] (displayItems items)
  | map fields => (displayMain? fields).getD (listed (map fields))
  | range first last closed => rangeText first last closed

def displayItems : List Value → List Text
  | [] => []
  | v :: rest => display v :: displayItems rest

def displayMain? : List (Text × Value) → Option Text
  | [] => none
  | (k, v) :: rest => if k = mainKey then some (display v) else displayMain? rest

end

/-- A number as formula text: plain digits, in brackets if it is negative. The special values are
written as divisions by zero. -/
def numberLiteral (x : Float) : Text :=
  match Double.ofFloat x with
  | .nan => "(0.0/0.0)".toList
  | .infinite negative => if negative then "(-1.0/0.0)".toList else "(1.0/0.0)".toList
  | .finite negative m _ =>
    if negative ∧ m ≠ 0 then '(' :: NumberFormat.display.write x ++ [')'] else NumberFormat.display.write x

mutual

/-- A value as formula text. The empty value counts as zero, and values that have no notation are
written as the text that shows them. -/
def literal : Value → Text
  | unit => ['0']
  | bool b => if b then "true".toList else "false".toList
  | int n => numberLiteral (Float.ofInt n)
  | float x => numberLiteral x
  | char c => Text.quote [c]
  | text t => Text.quote t
  | array [v] => literal v
  | array items => '[' :: Text.join [',', ' '] (literalItems items) ++ [']']
  | map fields => (literalMain? fields).getD (Text.quote (listed (map fields)))
  | range first last closed => Text.quote (rangeText first last closed)

def literalItems : List Value → List Text
  | [] => []
  | v :: rest => literal v :: literalItems rest

def literalMain? : List (Text × Value) → Option Text
  | [] => none
  | (k, v) :: rest => if k = mainKey then some (literal v) else literalMain? rest

end

/-- The number that a raw text denotes. It must have a digit, and be finite. -/
def rawNumber? (t : Text) : Option Float :=
  if t.any Text.isDigit then (Number.read? t).filter Float.isFinite else none

/-- The value of a raw text that is no formula: zero if it is blank, a number if it denotes one, and
otherwise the text itself. -/
def ofRaw (raw : Text) : Value :=
  let trimmed := Text.trim raw
  if trimmed.isEmpty then float 0
  else match rawNumber? trimmed with
    | some x => float x
    | none => text raw

end Spreadsheet.Script.Value
