import Spreadsheet.Sheet.Generation
import Spreadsheet.Sheet.Resize
import Spreadsheet.Sheet.Tool

/-!
# Operations in place

An operation that may fail works on the sheet step by step, and nothing is taken back when it does: what
was written before a failure stays written. So it has to check before it writes. `atomic` is the operation
that a function on sheets describes which returns no sheet when it fails; `setCell_eq` and its companions
find that function for each operation.
-/

namespace Spreadsheet

namespace Sheet

/-- An operation on a sheet in place. What it has written when it fails stays written. -/
abbrev Change := ExceptT Error (StateM Sheet)

namespace Change

/-- Replaces the raw text of a cell and returns whether there is such a cell. -/
def put (c : Cell) (t : Text) : Change Bool := do
  let found := ((← get).grid.raw? c).isSome
  modify fun s => { s with grid := s.grid.set c t }
  return found

/-- Loads a text into the bar if it has become that of the anchor. -/
def syncBar (c : Cell) (t : Text) : Change Unit :=
  modify fun s => { s with bar := if s.selection.anchor? = some c then t else s.bar }

def setCell (c : Cell) (t : Text) : Change Unit := do
  if ← put c t then syncBar c t else throw (.cellOutside c)

def select (c : Cell) : Change Unit := do
  match (← get).grid.raw? c with
  | none => throw (.cellOutside c)
  | some raw =>
    modify fun s => { s with selection := .single c }
    modify fun s => { s with bar := raw }

def extend (c : Cell) : Change Unit := do
  if !(← get).grid.contains c then throw (.cellOutside c)
  match (← get).selection.anchor? with
  | some a => modify fun s => { s with selection := .range a (.spanning a c) }
  | none => select c

def editBar (t : Text) : Change Unit := do
  match (← get).selection.anchor? with
  | none => throw .nothingSelected
  | some c =>
    modify fun s => { s with bar := t }
    discard (put c t)

/-- Takes a row out of the grid and returns whether there was one. -/
def takeRow (i : Nat) : Change Bool := do
  if i < (← get).grid.height then
    modify fun s => { s with grid := s.grid.eraseRow i }
    return true
  return false

/-- Takes a column out of the grid and returns its label. -/
def takeColumn (i : Nat) : Change (Option Text) := do
  match (← get).grid.headers[i]? with
  | some label =>
    modify fun s => { s with grid := s.grid.eraseColumn i }
    return some label
  | none => return none

/-- Moves the account of generated content along with its cells. -/
def moveAccount (e : Erasure) : Change Unit := do
  modify fun s => { s with
    pending := s.pending.filterMap fun p => (e.moved? p.cell).map fun c => { p with cell := c } }
  modify fun s => { s with failed := fun c => s.failed (e.source c) }

def eraseRow (i : Nat) : Change Unit := do
  let rows := (← get).grid.height
  if ← takeRow i then moveAccount (.row i) else throw (.rowOutside i rows)

def eraseColumn (i : Nat) : Change Text := do
  let cols := (← get).grid.width
  match ← takeColumn i with
  | some label =>
    moveAccount (.column i)
    return label
  | none => throw (.columnOutside i cols)

/-- Wraps one cell and returns whether there is such a cell. -/
def wrap (w : Wrapper) (c : Cell) : Change Bool := do
  match (← get).grid.raw? c with
  | none => return false
  | some raw =>
    discard (put c (w.apply raw))
    syncBar c (w.apply raw)
    return true

/-- Wraps cells one after the other and counts those that there are. -/
def wrapAll (w : Wrapper) (cells : List Cell) (n : Nat) : Change Nat :=
  cells.foldlM (fun n c => do return if ← wrap w c then n + 1 else n) n

def format (w : Wrapper) : Change Nat := do
  let cells := (← get).selection.cells
  if cells.isEmpty then throw .nothingSelected
  wrapAll w cells 0

def request (c : Cell) (r : Request) : Change Task := do
  match (← get).generator with
  | none => throw (.generation .unavailable)
  | some generator =>
    match (← get).grid.raw? c with
    | none => throw (.cellOutside c)
    | some raw =>
      let ticket := (← get).nextTicket
      modify fun s => { s with nextTicket := ticket + 1 }
      modify fun s => { s with failed := record s.failed c none }
      modify fun s => { s with pending := s.pending.filter (·.cell ≠ c) ++ [⟨ticket, c, raw⟩] }
      return ⟨c, r, ticket, generator r⟩

def generate : Change Task := do
  match (← get).selection.anchor? with
  | none => throw .nothingSelected
  | some c =>
    let options := (← get).options
    request c { model := options.model, prompt := options.prompt, maxOutputTokens := options.maxOutputTokens }

/-! ### What the operations come to -/

variable {α β : Type} {s : Sheet} {c : Cell}

/-- What an operation answers on a sheet, and the sheet afterwards. -/
def on (x : Change α) (s : Sheet) : Except Error α × Sheet := x.run s

theorem on_bind (x : Change α) (k : α → Change β) (s : Sheet) :
    (x >>= k).on s = match x.on s with
      | (.ok a, s') => (k a).on s'
      | (.error e, s') => (.error e, s') := by
  show (match x.on s with | (r, s') => ExceptT.bindCont k r s') = _
  rcases x.on s with ⟨e | a, s'⟩ <;> rfl

@[simp] theorem on_pure (a : α) (s : Sheet) : (pure a : Change α).on s = (.ok a, s) := rfl

@[simp] theorem on_throw (e : Error) (s : Sheet) : (throw e : Change α).on s = (.error e, s) := rfl

@[simp] theorem on_get_bind (k : Sheet → Change α) (s : Sheet) : (get >>= k).on s = (k s).on s := rfl

@[simp] theorem on_modify (f : Sheet → Sheet) (s : Sheet) : (modify f : Change PUnit).on s = (.ok ⟨⟩, f s) := rfl

@[simp] theorem on_modify_bind (f : Sheet → Sheet) (k : PUnit → Change α) (s : Sheet) :
    (modify f >>= k).on s = (k ⟨⟩).on (f s) := rfl

theorem ext_on {x y : Change α} (h : ∀ s, x.on s = y.on s) : x = y := funext h

/-- The operation that a function on sheets describes. Where the function fails, the sheet is left alone. -/
def atomic (f : Sheet → Except Error (Sheet × α)) : Change α := ExceptT.mk fun s =>
  match f s with
  | .ok (s', a) => (.ok a, s')
  | .error e => (.error e, s)

theorem on_atomic (f : Sheet → Except Error (Sheet × α)) (s : Sheet) :
    (atomic f).on s = match f s with
      | .ok (s', a) => (.ok a, s')
      | .error e => (.error e, s) := rfl

theorem on_put (c : Cell) (t : Text) (s : Sheet) :
    (put c t).on s = (.ok (s.grid.raw? c).isSome, { s with grid := s.grid.set c t }) := rfl

/-- A text that finds no cell has changed nothing when the operation fails. -/
theorem setCell_eq (c : Cell) (t : Text) : setCell c t = atomic fun s => (s.setCell c t).map (·, ()) := by
  refine ext_on fun s => ?_
  rw [setCell, on_bind, on_put, on_atomic, Sheet.setCell]
  cases hraw : s.grid.raw? c with
  | some raw => rfl
  | none =>
    show (Except.error _, { s with grid := s.grid.set c t }) = (Except.error _, s)
    rw [Grid.set_of_raw?_eq_none hraw]

theorem select_eq (c : Cell) : select c = atomic fun s => (s.select c).map (·, ()) := by
  refine ext_on fun s => ?_
  rw [select, on_get_bind, on_atomic, Sheet.select]
  cases s.grid.raw? c <;> rfl

theorem extend_eq (c : Cell) : extend c = atomic fun s => (s.extend c).map (·, ()) := by
  refine ext_on fun s => ?_
  rw [extend, on_get_bind, on_atomic, Sheet.extend, select_eq]
  cases hc : s.grid.contains c with
  | false => rfl
  | true => cases hs : s.selection <;> simp [hs, on_atomic, Selection.anchor?, Selection.extend, Except.map]

theorem editBar_eq (t : Text) : editBar t = atomic fun s => (s.editBar t).map (·, ()) := by
  refine ext_on fun s => ?_
  rw [editBar, on_get_bind, on_atomic, Sheet.editBar]
  cases s.selection.anchor? <;> rfl

theorem eraseRow_eq (i : Nat) : eraseRow i = atomic fun s => (s.eraseRow i).map (·, ()) := by
  refine ext_on fun s => ?_
  rw [eraseRow, on_get_bind, on_bind, takeRow, on_get_bind, on_atomic, Sheet.eraseRow]
  by_cases hi : i < s.grid.height
  · rw [if_pos hi, if_pos hi]; rfl
  · rw [if_neg hi, if_neg hi]; rfl

theorem eraseColumn_eq (i : Nat) : eraseColumn i = atomic fun s => s.eraseColumn i := by
  refine ext_on fun s => ?_
  rw [eraseColumn, on_get_bind, on_bind, takeColumn, on_get_bind, on_atomic, Sheet.eraseColumn]
  cases s.grid.headers[i]? <;> rfl

theorem request_eq (c : Cell) (r : Request) : request c r = atomic fun s => s.request c r := by
  refine ext_on fun ⟨_, grid, generator, _, _, _, _, _, _⟩ => ?_
  rw [request, on_get_bind, on_atomic, Sheet.request]
  cases generator with
  | none => rfl
  | some generator =>
    rw [on_get_bind]
    cases grid.raw? c <;> rfl

theorem generate_eq : generate = atomic Sheet.generate := by
  refine ext_on fun s => ?_
  rw [generate, on_get_bind, on_atomic, Sheet.generate]
  cases s.selection.anchor? with
  | none => rfl
  | some c => rw [on_get_bind, request_eq, on_atomic]

theorem on_wrap (w : Wrapper) (c : Cell) (s : Sheet) :
    (wrap w c).on s = (.ok (s.grid.raw? c).isSome, s.wrap w c) := by
  rw [wrap, on_get_bind, Sheet.wrap]
  cases s.grid.raw? c <;> rfl

theorem isSome_raw?_wrap (w : Wrapper) (s : Sheet) (c d : Cell) :
    ((s.wrap w c).grid.raw? d).isSome = (s.grid.raw? d).isSome := by
  rw [Sheet.wrap]
  split
  · exact Grid.isSome_raw?_set _ _ _ _
  · rfl

/-- Wrapping takes no cell away, so it does not matter when the cells are counted. -/
theorem on_wrapAll (w : Wrapper) (cells : List Cell) (n : Nat) (s : Sheet) :
    (wrapAll w cells n).on s =
      (.ok (n + (cells.filter fun c => (s.grid.raw? c).isSome).length), cells.foldl (Sheet.wrap w) s) := by
  induction cells generalizing n s with
  | nil => rfl
  | cons c cells ih =>
    rw [wrapAll, List.foldlM_cons, on_bind, on_bind, on_wrap]
    show (wrapAll w cells (if (s.grid.raw? c).isSome then n + 1 else n)).on (s.wrap w c) = _
    simp only [ih, List.foldl_cons, isSome_raw?_wrap, List.filter_cons]
    split
    · rw [List.length_cons, Nat.add_assoc, Nat.add_comm 1]
    · rfl

theorem format_eq (w : Wrapper) : format w = atomic fun s => s.format w := by
  refine ext_on fun s => ?_
  rw [format, on_get_bind, on_atomic, Sheet.format]
  by_cases hempty : s.selection.cells.isEmpty
  · simp only [if_pos hempty]
    rfl
  · simp only [if_neg hempty, on_wrapAll, Nat.zero_add]

end Change

end Sheet

end Spreadsheet
