import Spreadsheet.Area

/-!
# Selections

Nothing, one cell, or an area that was drawn from an anchor. The anchor stays where the selection began,
whichever way the area grew.
-/

namespace Spreadsheet

/-- The selected cells. -/
inductive Selection
  | idle
  | single (c : Cell)
  | range (anchor : Cell) (area : Area)
  deriving DecidableEq, Repr

namespace Selection

/-- The cell that the selection began with. -/
def anchor? : Selection → Option Cell
  | idle => none
  | single c | range c _ => some c

def area? : Selection → Option Area
  | idle => none
  | single c => some (.single c)
  | range _ s => some s

def contains (s : Selection) (c : Cell) : Bool := s.area?.any (·.contains c)

/-- The selected cells, row by row. -/
def cells (s : Selection) : List Cell := (s.area?.map Area.cells).getD []

/-- The selection drawn from its anchor to a cell; without an anchor the cell becomes it. -/
def extend (s : Selection) (c : Cell) : Selection :=
  match s.anchor? with
  | some a => range a (.spanning a c)
  | none => single c

@[simp] theorem anchor?_extend (s : Selection) (c : Cell) :
    (s.extend c).anchor? = some (s.anchor?.getD c) := by
  cases s <;> rfl

end Selection

end Spreadsheet
