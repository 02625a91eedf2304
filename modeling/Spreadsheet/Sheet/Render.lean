import Spreadsheet.Sheet.Generation

/-!
# Rendering

A pass over the sheet evaluates every cell and dispatches the requests that are due. The cells show what
they evaluated to before any of these requests was dispatched.
-/

namespace Spreadsheet

/-- A cell as it is shown. -/
structure Shown where
  value : Text := []
  style : Style := {}
  deriving DecidableEq, Repr, Inhabited

/-- A cell with all that a pass finds out about it. -/
structure Sighting where
  cell : Cell
  raw : Text
  style : Style
  outcome : Formula.Outcome

def Sighting.shown (v : Sighting) : Shown := ⟨v.outcome.display, v.style⟩

/-- What a pass shows, row by row, and what it dispatched. -/
structure Pass where
  rows : List (List Shown)
  tasks : List Task

namespace Sheet

/-- Evaluates one cell, given its raw text. -/
def sight (s : Sheet) (c : Cell) (raw : Text) : Sighting :=
  let styled := Styled.parse raw
  ⟨c, raw, styled.style, s.setting.evaluate c styled.content⟩

def sights (s : Sheet) : List (List Sighting) :=
  s.grid.rows.zipIdx.map fun (row, r) => row.zipIdx.map fun (raw, k) => s.sight ⟨r, k⟩ raw

/-- The request that is due for a cell. -/
def due? (s : Sheet) (v : Sighting) : Option (Cell × Request) :=
  match v.outcome with
  | .generate r => if s.isDue v.cell v.raw then some (v.cell, r) else none
  | _ => none

/-- Dispatches requests one after the other; one that cannot be dispatched is left out. -/
def requestAll (s : Sheet) : List (Cell × Request) → Sheet × List Task
  | [] => (s, [])
  | (c, r) :: rest =>
    match s.request c r with
    | .error _ => s.requestAll rest
    | .ok (s, task) =>
      let (s, tasks) := s.requestAll rest
      (s, task :: tasks)

/-- Evaluates every cell and dispatches what is due. -/
def render (s : Sheet) : Sheet × Pass :=
  let sights := s.sights
  let (s, tasks) := s.requestAll (sights.flatten.filterMap s.due?)
  (s, ⟨sights.map (·.map Sighting.shown), tasks⟩)

end Sheet

end Spreadsheet
