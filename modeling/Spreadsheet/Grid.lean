import Spreadsheet.Area

/-!
# Grids

A grid holds the raw text of its cells and the labels of its columns. Rows and columns are appended at
the end and removed anywhere. `Wf` says that every row has one cell per label and that no two columns
share a label.
-/

namespace Spreadsheet

/-- Raw texts row by row under column labels. -/
structure Grid where
  headers : List Text
  rows : List (List Text)
  deriving DecidableEq, Repr

namespace Grid

/-- What every operation keeps: full rows under distinct labels. -/
structure Wf (g : Grid) : Prop where
  full : ∀ row ∈ g.rows, row.length = g.headers.length
  distinct : g.headers.Nodup

/-- A grid of empty cells under the first labels. -/
def empty (rows cols : Nat) : Grid where
  headers := (List.range cols).map Label.ofIndex
  rows := List.replicate rows (List.replicate cols [])

def height (g : Grid) : Nat := g.rows.length

def width (g : Grid) : Nat := g.headers.length

/-- The raw text of a cell, if there is such a cell. -/
def raw? (g : Grid) (a : Cell) : Option Text := g.rows[a.row]?.bind (·[a.col]?)

/-- The raw text of a cell; a cell outside the grid reads as empty. -/
def raw (g : Grid) (a : Cell) : Text := (g.raw? a).getD []

def contains (g : Grid) (a : Cell) : Bool := a.row < g.height && a.col < g.width

/-- The grid with one raw text replaced; a cell outside the grid changes nothing. -/
def set (g : Grid) (a : Cell) (t : Text) : Grid :=
  { g with rows := g.rows.modify a.row fun row => row.set a.col t }

/-- The first column that carries a label. -/
def column? (g : Grid) (label : Text) : Option Nat := g.headers.idxOf? label

/-- The cell of the grid that a reference names. -/
def locate? (g : Grid) (token : Text) : Option Cell := do
  let (label, row) ← Token.split? token
  let col ← g.column? label
  if g.contains ⟨row, col⟩ then some ⟨row, col⟩ else none

def cells (g : Grid) : List Cell :=
  (List.range g.height).flatMap fun r => (List.range g.width).map fun c => ⟨r, c⟩

def addRow (g : Grid) : Grid :=
  { g with rows := g.rows ++ [List.replicate g.width []] }

/-- The grid without a row; the rows below move up. -/
def eraseRow (g : Grid) (i : Nat) : Grid :=
  { g with rows := g.rows.eraseIdx i }

def nextLabel (g : Grid) : Text := Label.free g.headers

/-- The grid with a column of empty cells appended under `nextLabel`. -/
def addColumn (g : Grid) : Grid where
  headers := g.headers ++ [g.nextLabel]
  rows := g.rows.map (· ++ [[]])

/-- The grid without a column; the columns to its right move left and keep their labels. -/
def eraseColumn (g : Grid) (i : Nat) : Grid where
  headers := g.headers.eraseIdx i
  rows := g.rows.map (·.eraseIdx i)

theorem isSome_raw?_set (g : Grid) (a b : Cell) (t : Text) :
    ((g.set a t).raw? b).isSome = (g.raw? b).isSome := by
  simp only [raw?, set, List.getElem?_modify]
  cases g.rows[b.row]? with
  | none => simp
  | some row =>
    have hlength (u : List Text) : u[b.col]?.isSome ↔ b.col < u.length := by
      rw [Option.isSome_iff_ne_none, ne_eq, List.getElem?_eq_none_iff, Nat.not_le]
    split
    · simp [Bool.eq_iff_iff, hlength]
    · simp

theorem set_of_raw?_eq_none {g : Grid} {a : Cell} (h : g.raw? a = none) (t : Text) : g.set a t = g := by
  have hrows : g.rows.modify a.row (fun row => row.set a.col t) = g.rows := by
    refine List.ext_getElem? fun r => ?_
    rw [List.getElem?_modify]
    split
    · next hr =>
      subst hr
      cases hrow : g.rows[a.row]? with
      | none => rfl
      | some row =>
        have hcol : row.length ≤ a.col := by simpa [raw?, hrow] using h
        exact congrArg some (List.set_eq_of_length_le hcol)
    · exact Option.map_id'
  rw [set, hrows]

end Grid

end Spreadsheet
