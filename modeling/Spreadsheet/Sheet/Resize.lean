import Spreadsheet.Sheet.Basic

/-!
# Adding and erasing rows and columns

The account of generated content moves with its cells. The selection does not: it keeps its place on the
screen, and so its anchor may come to lie outside the grid.
-/

namespace Spreadsheet.Sheet

/-- The sheet without a row or a column. What was known of the lost cells is forgotten. -/
def erase (s : Sheet) (e : Erasure) : Sheet :=
  { s with
    grid := s.grid.erase e
    pending := s.pending.filterMap fun p => (e.moved? p.cell).map fun c => { p with cell := c }
    failed := fun c => s.failed (e.source c) }

def eraseRow (s : Sheet) (i : Nat) : Except Error Sheet :=
  if i < s.grid.height then .ok (s.erase (.row i)) else .error (.rowOutside i s.grid.height)

/-- Erases a column and returns its label. -/
def eraseColumn (s : Sheet) (i : Nat) : Except Error (Sheet × Text) :=
  match s.grid.headers[i]? with
  | some label => .ok (s.erase (.column i), label)
  | none => .error (.columnOutside i s.grid.width)

def addRow (s : Sheet) : Sheet := { s with grid := s.grid.addRow }

/-- Appends an empty column and returns its label. -/
def addColumn (s : Sheet) : Sheet × Text := ({ s with grid := s.grid.addColumn }, s.grid.nextLabel)

end Spreadsheet.Sheet
