import Spreadsheet.Text.Visible
import Spreadsheet.Number.Format

/-!
# Script values

What a script computes with. `Value.joined` is the text of a value where it is joined to a text,
`Value.listed` its text inside a joined array or map; both are structural, with one companion for the
items of an array and one for the fields of a map.
-/

namespace Spreadsheet.Script

/-- The longest text, in bytes. -/
def maxTextSize : Nat := 65536

/-- The size of a text in bytes. -/
def textSize (t : Text) : Nat := t.foldl (fun n c => n + c.utf8Size) 0

/-- The greatest whole number. -/
def maxInt : Int := Int.pow 2 63 - 1

/-- The least whole number. -/
def minInt : Int := -Int.pow 2 63

/-- A value of the script language. The fields of a map are in the order of their keys. -/
inductive Value
  | unit
  | bool (b : Bool)
  /-- A whole number of 64 bits. -/
  | int (n : Int)
  | float (x : Float)
  | char (c : Char)
  | text (t : Text)
  | array (items : List Value)
  | map (fields : List (Text × Value))
  /-- Whole numbers from `first` to `last`; `last` itself belongs to a closed range only. -/
  | range (first last : Int) (closed : Bool)
  deriving Inhabited

namespace Value

/-- A character inside a quoted text, as listings write it. -/
def listedChar (c : Char) : Text :=
  if c = '"' ∨ c = '\\' then ['\\', c]
  else if c = '\n' then ['\\', 'n']
  else if c = '\r' then ['\\', 'r']
  else if c = '\t' then ['\\', 't']
  else if c.toNat = 0 then ['\\', '0']
  else if Text.isVisible c then [c]
  else ['\\', 'u', '\x7b'] ++ Nat.toDigits 16 c.toNat ++ ['\x7d']

/-- A text in quotation marks, as listings write it. -/
def quoted (t : Text) : Text := '"' :: t.flatMap listedChar ++ ['"']

/-- A range as it is written. -/
def rangeText (first last : Int) (closed : Bool) : Text :=
  Text.integer first ++ ['.', '.'] ++ (if closed then ['='] else []) ++ Text.integer last

mutual

/-- The text of a value inside a joined array or map: texts are quoted, and characters are not. -/
def listed : Value → Text
  | unit => ['(', ')']
  | bool b => if b then "true".toList else "false".toList
  | int n => Text.integer n
  | float x => NumberFormat.listed.write x
  | char c => [c]
  | text t => quoted t
  | array items => '[' :: Text.join [',', ' '] (listedItems items) ++ [']']
  | map fields => ['#', '\x7b'] ++ Text.join [',', ' '] (listedFields fields) ++ ['\x7d']
  | range first last closed => rangeText first last closed

def listedItems : List Value → List Text
  | [] => []
  | v :: rest => listed v :: listedItems rest

/-- The texts of the fields of a map, each behind its key. -/
def listedFields : List (Text × Value) → List Text
  | [] => []
  | (k, v) :: rest => (quoted k ++ [':', ' '] ++ listed v) :: listedFields rest

end

/-- The text of a value where it is joined to a text. -/
def joined : Value → Text
  | unit => []
  | float x => NumberFormat.joined.write x
  | text t => t
  | v => listed v

/-- The name of a kind of value in messages. -/
def kind : Value → Text
  | unit => "()".toList
  | bool _ => "bool".toList
  | int _ => "i64".toList
  | float _ => "f64".toList
  | char _ => "char".toList
  | text _ => "string".toList
  | array _ => "array".toList
  | map _ => "map".toList
  | range _ _ closed =>
    (if closed then "core::ops::range::RangeInclusive<i64>" else "core::ops::range::Range<i64>").toList

def field? (key : Text) : List (Text × Value) → Option Value
  | [] => none
  | (k, v) :: rest => if k = key then some v else field? key rest

/-- The fields of a map with a field set, in the order of the keys. -/
def setField (key : Text) (v : Value) : List (Text × Value) → List (Text × Value)
  | [] => [(key, v)]
  | (k, w) :: rest =>
    if k = key then (key, v) :: rest
    else if key < k then (key, v) :: (k, w) :: rest
    else (k, w) :: setField key v rest

end Value

end Spreadsheet.Script
