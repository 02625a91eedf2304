import Spreadsheet.Sheet.Basic

/-!
# Formatting tools

A tool wraps the raw text of a cell. It is applied to all selected cells at once, or kept in hand and
applied to each cell that the pointer enters.
-/

namespace Spreadsheet.Sheet

/-- Wraps one cell; outside the grid there is nothing to wrap. -/
def wrap (w : Wrapper) (s : Sheet) (c : Cell) : Sheet :=
  match s.grid.raw? c with
  | some raw => s.write c (w.apply raw)
  | none => s

/-- Wraps every selected cell that lies in the grid and returns how many there are. -/
def format (s : Sheet) (w : Wrapper) : Except Error (Sheet × Nat) :=
  if s.selection.cells.isEmpty then .error .nothingSelected
  else
    .ok (s.selection.cells.foldl (wrap w) s,
      (s.selection.cells.filter fun c => (s.grid.raw? c).isSome).length)

/-- Takes a tool in hand, or puts it away. -/
def setTool (s : Sheet) (w : Option Wrapper) : Sheet := { s with tool := w }

/-- Puts the tool away and returns whether there was one. -/
def escape (s : Sheet) : Sheet × Bool := (s.setTool none, s.tool.isSome)

/-- Applies the tool in hand to a cell and returns whether it did. -/
def pointerEnter (s : Sheet) (c : Cell) : Sheet × Bool :=
  match s.tool with
  | some w => (s.wrap w c, s.grid.contains c)
  | none => (s, false)

end Spreadsheet.Sheet
