import Spreadsheet.Sheet.Basic

/-!
# Generated content

A cell that asks for content gets a task with a ticket, and at most one request of a cell is pending. A
completion is looked up by its ticket: it reaches the cell that asked, wherever that cell is by now, or
nothing at all if the cell was erased or has asked again.
-/

namespace Spreadsheet

/-- A dispatched request. What the generator answers is settled when it is dispatched. -/
structure Task where
  /-- The cell that asked, where it was then. -/
  cell : Cell
  request : Request
  ticket : Nat
  answer : Except GenerationError Text

/-- The end of a task. -/
structure Completion where
  ticket : Nat
  answer : Except GenerationError Text

def Task.completion (t : Task) : Completion := ⟨t.ticket, t.answer⟩

namespace Markup

/-- The raw text of a cell after new content has come in: the layers of the old one around the trimmed
content, unless the whole would not read back as that. -/
def refill (raw content : Text) : Text :=
  let t := Text.trim content
  let whole := (Styled.parse raw).rewrap t
  if (Styled.parse whole).content = t then whole else t

end Markup

namespace Sheet

/-- The account with another entry for one cell. -/
def record (failed : Cell → Option Text) (c : Cell) (raw : Option Text) : Cell → Option Text :=
  fun d => if d = c then raw else failed d

/-- Dispatches a request for a cell. An earlier request of that cell loses its ticket, and an earlier
failure is forgotten. -/
def request (s : Sheet) (c : Cell) (r : Request) : Except Error (Sheet × Task) :=
  match s.generator, s.grid.raw? c with
  | none, _ => .error (.generation .unavailable)
  | some _, none => .error (.cellOutside c)
  | some generator, some raw =>
    .ok ({ s with
        pending := s.pending.filter (·.cell ≠ c) ++ [⟨s.nextTicket, c, raw⟩]
        nextTicket := s.nextTicket + 1
        failed := record s.failed c none },
      ⟨c, r, s.nextTicket, generator r⟩)

/-- Dispatches the request of the options for the anchor. -/
def generate (s : Sheet) : Except Error (Sheet × Task) :=
  match s.selection.anchor? with
  | none => .error .nothingSelected
  | some c =>
    s.request c {
      model := s.options.model
      prompt := s.options.prompt
      maxOutputTokens := s.options.maxOutputTokens }

/-- Takes a completion in and returns whether a cell has new content. -/
def complete (s : Sheet) (d : Completion) : Sheet × Bool :=
  match s.pending.find? (·.ticket = d.ticket) with
  | none => (s, false)
  | some p =>
    let s := { s with pending := s.pending.filter (·.ticket ≠ d.ticket) }
    match d.answer, s.grid.raw? p.cell with
    | .error _, _ => ({ s with failed := record s.failed p.cell (some p.raw) }, false)
    | .ok _, none => (s, false)
    | .ok content, some raw => (s.write p.cell (Markup.refill raw content), true)

/-- Forgets that a cell's request failed and returns whether it had. -/
def retry (s : Sheet) (c : Cell) : Sheet × Bool :=
  ({ s with failed := record s.failed c none }, (s.failed c).isSome)

/-- A cell with this raw text is neither pending nor failed. -/
def isDue (s : Sheet) (c : Cell) (raw : Text) : Bool :=
  !(s.pending.any fun p => p.cell = c && p.raw = raw) && s.failed c != some raw

end Sheet

end Spreadsheet
