import Spreadsheet.Sheet.Render

/-!
# Markdown tables

A sheet as a Markdown table: a column of row numbers, then the columns under their labels. Characters
that Markdown gives a meaning are escaped, so each line has one bar more than it has columns.
-/

namespace Spreadsheet

namespace Markdown

/-- Characters that stand for themselves only behind a backslash. -/
def isSpecial (c : Char) : Bool :=
  c ∈ ['\\', '|', '*', '_', '\x60', '<', '>', '[', ']']

/-- One character of a text inside a table. A cell is one line, so a line feed becomes a space. -/
def escapeChar (c : Char) : Text :=
  if isSpecial c then ['\\', c] else if c = '\n' then [' '] else if c = '\r' then [] else [c]

def escape (t : Text) : Text := t.flatMap escapeChar

def mark (m t : Text) : Text := m ++ t ++ m

/-- A cell. Bold and italic show as emphasis; there is nothing to emphasise in an empty text. -/
def cell (v : Shown) : Text :=
  let t := escape v.value
  if t.isEmpty then t
  else
    let t := if v.style.italic then mark ['_'] t else t
    if v.style.bold then mark ['*', '*'] t else t

/-- A line of the table: each text stands behind a bar, between the same blanks, and a bar ends it. -/
def line (blank : Text) (ts : List Text) : Text :=
  '|' :: ts.flatMap (fun t => blank ++ t ++ blank ++ ['|']) ++ ['\n']

/-- A table of cells under labels. -/
def table (labels : List Text) (rows : List (List Shown)) : Text :=
  line [' '] ([' '] :: labels) ++ line [] (List.replicate (labels.length + 1) "---".toList) ++
    (rows.zipIdx 1).flatMap fun (row, n) => line [' '] (Text.decimal n :: row.map cell)

end Markdown

def Sheet.markdown (s : Sheet) : Sheet × Text :=
  let (s, pass) := s.render
  (s, Markdown.table s.grid.headers pass.rows)

end Spreadsheet
