import Spreadsheet.Label

/-!
# Cells

A cell is a row and a column, both counted from 0. Its name is the column's label and the row counted
from 1. A token such as `B3` splits into a label and a row; which column carries the label is for the
grid to say.
-/

namespace Spreadsheet

/-- A position in a grid. -/
structure Cell where
  row : Nat
  col : Nat
  deriving DecidableEq, Repr, Inhabited

namespace Cell

/-- The name of a cell under the labels `A`, `B`, `C` and so on. -/
def name (c : Cell) : Text := Label.ofIndex c.col ++ Text.decimal (c.row + 1)

end Cell

namespace Token

/-- The shape of a reference: capital letters followed by digits, at least one of each. -/
def isReference (t : Text) : Bool :=
  let digits := t.dropWhile Text.isCapital
  !(t.takeWhile Text.isCapital).isEmpty && !digits.isEmpty && digits.all Text.isDigit

/-- The largest row number, counted from 1. -/
def maxRow : Nat := Nat.pow 2 64 - 1

/-- The label and the row, counted from 0, that a reference names. Row number 0 and numbers beyond
`maxRow` name nothing. -/
def split? (t : Text) : Option (Text × Nat) :=
  if isReference t then
    let n := Text.value (t.dropWhile Text.isCapital)
    if 1 ≤ n ∧ n ≤ maxRow then some (t.takeWhile Text.isCapital, n - 1) else none
  else none

end Token

end Spreadsheet
