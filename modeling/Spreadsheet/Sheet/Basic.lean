import Spreadsheet.Erasure
import Spreadsheet.Formula.Evaluate
import Spreadsheet.Sheet.Selection

/-!
# Sheets

A sheet is a grid in use. Beside the grid it holds what is selected, the text of the formula bar, the
tool in hand, and an account of generated content: which requests are pending, and with which raw text
a cell's last request failed. An operation that fails says why in an `Error` and returns no sheet.
-/

namespace Spreadsheet

/-- What a sheet starts with, and what it asks for on behalf of a selected cell. -/
structure Options where
  rows : Nat := 10
  cols : Nat := 5
  model : Text := "text-davinci-002".toList
  prompt : Text :=
    "Generate a short, interesting fact or piece of data for a spreadsheet cell.".toList
  maxOutputTokens : Nat := 50
  deriving DecidableEq, Repr

/-- Answers requests for content. -/
abbrev Generator := Request → Except GenerationError Text

/-- A request that was dispatched and has not been answered. -/
structure Pending where
  ticket : Nat
  /-- Where the cell that asked is now. -/
  cell : Cell
  /-- The raw text of that cell when it asked. -/
  raw : Text
  deriving DecidableEq, Repr

/-- A grid in use. -/
structure Sheet where
  options : Options
  grid : Grid
  generator : Option Generator := none
  selection : Selection := .idle
  /-- The text of the formula bar. -/
  bar : Text := []
  /-- The tool that is applied to each cell the pointer enters. -/
  tool : Option Wrapper := none
  /-- The pending requests, in the order of their tickets. -/
  pending : List Pending := []
  nextTicket : Nat := 0
  /-- The raw text with which a cell's last request failed. -/
  failed : Cell → Option Text := fun _ => none

namespace Sheet

/-- Why an operation fails. -/
inductive Error
  | rowOutside (row rows : Nat)
  | columnOutside (col cols : Nat)
  | cellOutside (c : Cell)
  | nothingSelected
  | generation (e : GenerationError)
  deriving DecidableEq, Repr

/-- The text of an error; rows and columns are counted from 0 there. -/
def Error.message : Error → Text
  | rowOutside row rows =>
    "Row ".toList ++ Text.decimal row ++ " is out of bounds (sheet has ".toList ++
      Text.decimal rows ++ " rows)".toList
  | columnOutside col cols =>
    "Column ".toList ++ Text.decimal col ++ " is out of bounds (sheet has ".toList ++
      Text.decimal cols ++ " columns)".toList
  | cellOutside c => "Cell ".toList ++ c.name ++ " is out of bounds".toList
  | nothingSelected => "No cell selected".toList
  | generation e => "Generation error: ".toList ++ e.message

def new (o : Options) : Sheet where
  options := o
  grid := Grid.empty o.rows o.cols

/-- What the formulas of the sheet are evaluated in: content can be generated if there is a generator. -/
def setting (s : Sheet) : Formula.Setting where
  grid := s.grid
  generation := s.generator.map fun _ => s.options.maxOutputTokens

/-- What a cell evaluates to, its formatting aside. -/
def evaluate (s : Sheet) (c : Cell) : Option Formula.Outcome :=
  (s.grid.raw? c).map fun raw => s.setting.evaluate c (Styled.parse raw).content

def display (s : Sheet) (c : Cell) : Option Text := (s.evaluate c).map (·.display)

/-- Gives a cell a raw text. The bar goes with its cell. -/
def write (s : Sheet) (c : Cell) (t : Text) : Sheet :=
  { s with
    grid := s.grid.set c t
    bar := if s.selection.anchor? = some c then t else s.bar }

/-- Gives a cell of the sheet a raw text. -/
def setCell (s : Sheet) (c : Cell) (t : Text) : Except Error Sheet :=
  if (s.grid.raw? c).isSome then .ok (s.write c t) else .error (.cellOutside c)

/-- Selects one cell and loads it into the bar. -/
def select (s : Sheet) (c : Cell) : Except Error Sheet :=
  match s.grid.raw? c with
  | some raw => .ok { s with selection := .single c, bar := raw }
  | none => .error (.cellOutside c)

/-- Draws the selection from its anchor to a cell, or selects that cell if nothing is selected. The bar
stays with the anchor. -/
def extend (s : Sheet) (c : Cell) : Except Error Sheet :=
  if s.grid.contains c then
    match s.selection with
    | .idle => s.select c
    | selection => .ok { s with selection := selection.extend c }
  else .error (.cellOutside c)

def clearSelection (s : Sheet) : Sheet := { s with selection := .idle, bar := [] }

/-- Writes into the bar and, with it, into the anchor. An anchor that has been erased from the grid
takes no text. -/
def editBar (s : Sheet) (t : Text) : Except Error Sheet :=
  match s.selection.anchor? with
  | some c => .ok { s with grid := s.grid.set c t, bar := t }
  | none => .error .nothingSelected

/-- Replaces the generator. Requests that are pending stay so. -/
def setGenerator (s : Sheet) (g : Option Generator) : Sheet := { s with generator := g }

end Sheet

end Spreadsheet
