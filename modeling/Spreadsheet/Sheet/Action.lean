import Spreadsheet.Sheet.Change
import Spreadsheet.Sheet.Render

/-!
# Actions

Everything that can be done to a sheet, as a type, and one total step, which works on the sheet in place
and answers with the error where an operation fails. `act_setCell` and its companions give the step of
such an operation as a function that returns no sheet when it fails. `run` takes a sheet through a list
of actions.
-/

namespace Spreadsheet

/-- What can be done to a sheet. -/
inductive Action
  | setCell (c : Cell) (t : Text)
  | select (c : Cell)
  | extend (c : Cell)
  | clearSelection
  | editBar (t : Text)
  | addRow
  | addColumn
  | eraseRow (i : Nat)
  | eraseColumn (i : Nat)
  | format (w : Wrapper)
  | setTool (w : Option Wrapper)
  | escape
  | pointerEnter (c : Cell)
  | setGenerator (g : Option Generator)
  | request (c : Cell) (r : Request)
  | generate
  | complete (d : Completion)
  | retry (c : Cell)
  | render

/-- What an action answers. -/
inductive Answer
  | done
  | label (t : Text)
  | count (n : Nat)
  | flag (b : Bool)
  | task (t : Task)
  | pass (p : Pass)
  | failed (e : Sheet.Error)

namespace Sheet

/-- The sheet and the answer after an operation in place. -/
def perform {α : Type} (s : Sheet) (answer : α → Answer) (x : Change α) : Sheet × Answer :=
  match x.on s with
  | (.ok a, s') => (s', answer a)
  | (.error e, s') => (s', .failed e)

/-- Does one thing to a sheet. -/
def act (s : Sheet) : Action → Sheet × Answer
  | .setCell c t => s.perform (fun _ => .done) (Change.setCell c t)
  | .select c => s.perform (fun _ => .done) (Change.select c)
  | .extend c => s.perform (fun _ => .done) (Change.extend c)
  | .clearSelection => (s.clearSelection, .done)
  | .editBar t => s.perform (fun _ => .done) (Change.editBar t)
  | .addRow => (s.addRow, .done)
  | .addColumn => s.addColumn.map id .label
  | .eraseRow i => s.perform (fun _ => .done) (Change.eraseRow i)
  | .eraseColumn i => s.perform .label (Change.eraseColumn i)
  | .format w => s.perform .count (Change.format w)
  | .setTool w => (s.setTool w, .done)
  | .escape => s.escape.map id .flag
  | .pointerEnter c => (s.pointerEnter c).map id .flag
  | .setGenerator g => (s.setGenerator g, .done)
  | .request c r => s.perform .task (Change.request c r)
  | .generate => s.perform .task Change.generate
  | .complete d => (s.complete d).map id .flag
  | .retry c => (s.retry c).map id .flag
  | .render => s.render.map id .pass

/-- The sheet and the answer after a function that returns no sheet when it fails. -/
def settle {α : Type} (s : Sheet) (answer : α → Answer) : Except Error (Sheet × α) → Sheet × Answer
  | .ok (s', a) => (s', answer a)
  | .error e => (s, .failed e)

/-- The sheet and the answer after a function that returns no sheet when it fails, and else has nothing to say. -/
def settleDone (s : Sheet) : Except Error Sheet → Sheet × Answer
  | .ok s' => (s', .done)
  | .error e => (s, .failed e)

section

variable {α : Type} (s : Sheet)

theorem perform_atomic (answer : α → Answer) (f : Sheet → Except Error (Sheet × α)) :
    s.perform answer (Change.atomic f) = s.settle answer (f s) := by
  rw [perform, Change.on_atomic]
  rcases f s with e | ⟨s', a⟩ <;> rfl

theorem perform_atomic_done (f : Sheet → Except Error Sheet) :
    s.perform (fun _ => .done) (Change.atomic fun s => (f s).map (·, ())) = s.settleDone (f s) := by
  rw [perform_atomic]
  rcases f s with e | s' <;> rfl

theorem act_setCell (c : Cell) (t : Text) : s.act (.setCell c t) = s.settleDone (s.setCell c t) := by
  show s.perform (fun _ => .done) (Change.setCell c t) = _
  rw [Change.setCell_eq, perform_atomic_done]

theorem act_select (c : Cell) : s.act (.select c) = s.settleDone (s.select c) := by
  show s.perform (fun _ => .done) (Change.select c) = _
  rw [Change.select_eq, perform_atomic_done]

theorem act_extend (c : Cell) : s.act (.extend c) = s.settleDone (s.extend c) := by
  show s.perform (fun _ => .done) (Change.extend c) = _
  rw [Change.extend_eq, perform_atomic_done]

theorem act_editBar (t : Text) : s.act (.editBar t) = s.settleDone (s.editBar t) := by
  show s.perform (fun _ => .done) (Change.editBar t) = _
  rw [Change.editBar_eq, perform_atomic_done]

theorem act_eraseRow (i : Nat) : s.act (.eraseRow i) = s.settleDone (s.eraseRow i) := by
  show s.perform (fun _ => .done) (Change.eraseRow i) = _
  rw [Change.eraseRow_eq, perform_atomic_done]

theorem act_eraseColumn (i : Nat) : s.act (.eraseColumn i) = s.settle .label (s.eraseColumn i) := by
  show s.perform .label (Change.eraseColumn i) = _
  rw [Change.eraseColumn_eq, perform_atomic]

theorem act_format (w : Wrapper) : s.act (.format w) = s.settle .count (s.format w) := by
  show s.perform .count (Change.format w) = _
  rw [Change.format_eq, perform_atomic]

theorem act_request (c : Cell) (r : Request) : s.act (.request c r) = s.settle .task (s.request c r) := by
  show s.perform .task (Change.request c r) = _
  rw [Change.request_eq, perform_atomic]

theorem act_generate : s.act .generate = s.settle .task s.generate := by
  show s.perform .task Change.generate = _
  rw [Change.generate_eq, perform_atomic]

end

/-- The sheet after a list of actions. -/
def run (s : Sheet) (actions : List Action) : Sheet := actions.foldl (fun s a => (s.act a).1) s

@[simp] theorem run_nil (s : Sheet) : s.run [] = s := rfl

@[simp] theorem run_cons (s : Sheet) (a : Action) (as : List Action) :
    s.run (a :: as) = (s.act a).1.run as := rfl

theorem run_append (s : Sheet) (as bs : List Action) : s.run (as ++ bs) = (s.run as).run bs :=
  List.foldl_append

/-- A sheet that actions lead to from an empty one. -/
def Reachable (s : Sheet) : Prop := ∃ o as, (new o).run as = s

theorem Reachable.act {s : Sheet} (h : s.Reachable) (a : Action) : (s.act a).1.Reachable := by
  obtain ⟨o, as, rfl⟩ := h
  exact ⟨o, as ++ [a], by simp [run_append]⟩

/-- What holds of empty sheets and is kept by every action holds of every reachable sheet. -/
theorem Reachable.induction {P : Sheet → Prop} (h0 : ∀ o, P (new o))
    (h1 : ∀ s a, P s → P (s.act a).1) {s : Sheet} (h : s.Reachable) : P s := by
  obtain ⟨o, as, rfl⟩ := h
  have all : ∀ (as : List Action) (s : Sheet), P s → P (s.run as) := by
    intro as
    induction as with
    | nil => exact fun _ h => h
    | cons a as ih => exact fun s h => ih _ (h1 s a h)
  exact all as _ (h0 o)

end Sheet

end Spreadsheet
