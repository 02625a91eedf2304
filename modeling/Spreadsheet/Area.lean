import Spreadsheet.Cell

/-!
# Areas

A rectangle of cells, given by its first and last row and column. `spanning` does not depend on which
two opposite corners are given (`spanning_comm`); `cells` lists an area row by row.
-/

namespace Spreadsheet

/-- A rectangle of cells; the four bounds belong to it. -/
structure Area where
  top : Nat
  bottom : Nat
  left : Nat
  right : Nat
  deriving DecidableEq, Repr

namespace Area

/-- The smallest area that holds both cells. -/
def spanning (a b : Cell) : Area where
  top := min a.row b.row
  bottom := max a.row b.row
  left := min a.col b.col
  right := max a.col b.col

def single (a : Cell) : Area := spanning a a

def contains (s : Area) (a : Cell) : Bool :=
  s.top ≤ a.row && a.row ≤ s.bottom && s.left ≤ a.col && a.col ≤ s.right

/-- The cells of an area, row by row and from left to right. -/
def cells (s : Area) : List Cell :=
  (List.range' s.top (s.bottom + 1 - s.top)).flatMap fun r =>
    (List.range' s.left (s.right + 1 - s.left)).map fun c => ⟨r, c⟩

theorem spanning_comm (a b : Cell) : spanning a b = spanning b a := by
  simp [spanning, Nat.min_comm, Nat.max_comm]

end Area

end Spreadsheet
