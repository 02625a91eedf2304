import Spreadsheet.Sheet.Action

/-!
# Elementary steps of a sheet

Every action is a chain of elementary steps (`act_steps`): writing a cell, appending or erasing a row or
a column, dispatching a request, taking a completion in, forgetting a failure, and changes that touch
neither the grid nor the account of generated content. What every `Step` keeps therefore holds of every
run. `history` lists what a run did to the account of generated content, in order.

What an operation comes to when it does not fail is said once for each (`setCell_eq_ok` and its companions), and
what an action comes to in `Effect`: whatever a single action keeps is shown by cases on it.
-/

namespace Spreadsheet

/-- What happens to the account of generated content. -/
inductive Event
  /-- A cell with this raw text asked for content and got a ticket. -/
  | dispatched (ticket : Nat) (cell : Cell) (raw : Text)
  /-- A completion with this ticket came in. -/
  | completed (ticket : Nat)
  | erased (e : Erasure)
  deriving DecidableEq, Repr

def Answer.tasks : Answer → List Task
  | .task t => [t]
  | .pass p => p.tasks
  | _ => []

/-- A dispatch from a grid. -/
def Task.event (g : Grid) (t : Task) : Event := .dispatched t.ticket t.cell (g.raw t.cell)

namespace Sheet

/-- What an action does to the account of generated content. -/
def events (s : Sheet) (a : Action) : List Event :=
  match a, (s.act a).2 with
  | .complete d, _ => [.completed d.ticket]
  | .eraseRow i, .done => [.erased (.row i)]
  | .eraseColumn i, .label _ => [.erased (.column i)]
  | _, answer => answer.tasks.map (Task.event s.grid)

/-- What a run of actions does to the account of generated content. -/
def history (s : Sheet) : List Action → List Event
  | [] => []
  | a :: as => s.events a ++ (s.act a).1.history as

/-- An elementary step and its events. -/
inductive Step : Sheet → List Event → Sheet → Prop
  | still {s s' : Sheet} (grid : s'.grid = s.grid) (pending : s'.pending = s.pending)
      (nextTicket : s'.nextTicket = s.nextTicket) (failed : s'.failed = s.failed) : Step s [] s'
  | write (s : Sheet) (c : Cell) (t : Text) : Step s [] (s.write c t)
  | addRow (s : Sheet) : Step s [] s.addRow
  | addColumn (s : Sheet) : Step s [] s.addColumn.1
  | erase (s : Sheet) (e : Erasure) : Step s [.erased e] (s.erase e)
  | dispatch {s s' : Sheet} {c : Cell} {r : Request} {t : Task} (h : s.request c r = .ok (s', t)) :
      Step s [t.event s.grid] s'
  | complete (s : Sheet) (d : Completion) : Step s [.completed d.ticket] (s.complete d).1
  | retry (s : Sheet) (c : Cell) : Step s [] (s.retry c).1

/-- A chain of elementary steps and its events. -/
inductive Steps : Sheet → List Event → Sheet → Prop
  | refl (s : Sheet) : Steps s [] s
  | tail {s s' s'' : Sheet} {es es' : List Event} (h : Steps s es s') (h' : Step s' es' s'') :
      Steps s (es ++ es') s''

variable {s s' s'' : Sheet} {es es' : List Event} {c : Cell} {t : Text} {r : Request} {task : Task} {w : Wrapper}

namespace Steps

theorem of_step (h : Step s es s') : Steps s es s' := (refl s).tail h

theorem trans (h : Steps s es s') (h' : Steps s' es' s'') : Steps s (es ++ es') s'' := by
  induction h' with
  | refl => rw [List.append_nil]; exact h
  | tail _ h2 ih => rw [← List.append_assoc]; exact ih.tail h2

/-- What every elementary step keeps is kept by a chain of them. -/
theorem induction {P : Sheet → Prop} (step : ∀ {s es s'}, Step s es s' → P s → P s')
    (h : Steps s es s') (h0 : P s) : P s' := by
  induction h with
  | refl => exact h0
  | tail _ h2 ih => exact step h2 ih

end Steps

/-! ### What an operation comes to when it does not fail -/

theorem setCell_eq_ok (h : s.setCell c t = .ok s') : (s.grid.raw? c).isSome ∧ s' = s.write c t := by
  unfold setCell at h
  split at h <;> cases h
  next hc => exact ⟨hc, rfl⟩

theorem select_eq_ok (h : s.select c = .ok s') :
    ∃ raw, s.grid.raw? c = some raw ∧ s' = { s with selection := .single c, bar := raw } := by
  unfold select at h
  split at h <;> cases h
  next raw hraw => exact ⟨raw, hraw, rfl⟩

theorem extend_eq_ok (h : s.extend c = .ok s') : s.selection = .idle ∧ s.select c = .ok s' ∨
    s.selection ≠ .idle ∧ s' = { s with selection := s.selection.extend c } := by
  unfold extend at h
  split at h
  · split at h
    · next hidle => exact .inl ⟨hidle, h⟩
    · next hidle => exact .inr ⟨hidle, (Except.ok.inj h).symm⟩
  · cases h

/-- What is written into the bar is written into the anchor. -/
theorem editBar_eq_ok (h : s.editBar t = .ok s') : ∃ c, s.selection.anchor? = some c ∧ s' = s.write c t := by
  unfold editBar at h
  split at h <;> cases h
  next c hc => exact ⟨c, hc, by rw [write, if_pos hc]⟩

theorem eraseRow_eq_ok {i : Nat} (h : s.eraseRow i = .ok s') : i < s.grid.height ∧ s' = s.erase (.row i) := by
  unfold eraseRow at h
  split at h <;> cases h
  next hi => exact ⟨hi, rfl⟩

theorem eraseColumn_eq_ok {i : Nat} {label : Text} (h : s.eraseColumn i = .ok (s', label)) :
    s.grid.headers[i]? = some label ∧ s' = s.erase (.column i) := by
  unfold eraseColumn at h
  split at h <;> cases h
  next hlabel => exact ⟨hlabel, rfl⟩

theorem format_eq_ok {n : Nat} (h : s.format w = .ok (s', n)) : s' = s.selection.cells.foldl (wrap w) s := by
  unfold format at h
  split at h <;> cases h
  rfl

/-- A dispatch happens in a cell of the grid and replaces whatever was known of that cell. -/
theorem request_eq_ok (h : s.request c r = .ok (s', task)) :
    ∃ raw, s.grid.raw? c = some raw ∧ task.ticket = s.nextTicket ∧ task.cell = c ∧
      s' = { s with
        pending := s.pending.filter (·.cell ≠ c) ++ [⟨s.nextTicket, c, raw⟩]
        nextTicket := s.nextTicket + 1
        failed := record s.failed c none } := by
  unfold request at h
  split at h <;> cases h
  next raw _ hraw => exact ⟨raw, hraw, rfl, rfl, rfl⟩

theorem generate_eq_ok (h : s.generate = .ok (s', task)) : ∃ c r, s.request c r = .ok (s', task) := by
  unfold generate at h
  split at h
  · cases h
  · next c _ => exact ⟨c, _, h⟩

/-! ### What an action comes to -/

/-- What an action that does not fail comes to, and its events. One that fails comes to nothing. -/
inductive Effect (s : Sheet) : Action → List Event → Sheet → Prop
  | failed (a : Action) : Effect s a [] s
  | setCell {c : Cell} {t : Text} (h : (s.grid.raw? c).isSome) : Effect s (.setCell c t) [] (s.write c t)
  | select {c : Cell} {raw : Text} (h : s.grid.raw? c = some raw) :
      Effect s (.select c) [] { s with selection := .single c, bar := raw }
  /-- An extension when nothing is selected. -/
  | first {c : Cell} {raw : Text} (hidle : s.selection = .idle) (h : s.grid.raw? c = some raw) :
      Effect s (.extend c) [] { s with selection := .single c, bar := raw }
  | extend {c : Cell} (h : s.selection ≠ .idle) :
      Effect s (.extend c) [] { s with selection := s.selection.extend c }
  | clearSelection : Effect s .clearSelection [] s.clearSelection
  | editBar {c : Cell} {t : Text} (h : s.selection.anchor? = some c) : Effect s (.editBar t) [] (s.write c t)
  | addRow : Effect s .addRow [] s.addRow
  | addColumn : Effect s .addColumn [] s.addColumn.1
  | eraseRow {i : Nat} (h : i < s.grid.height) : Effect s (.eraseRow i) [.erased (.row i)] (s.erase (.row i))
  | eraseColumn {i : Nat} {label : Text} (h : s.grid.headers[i]? = some label) :
      Effect s (.eraseColumn i) [.erased (.column i)] (s.erase (.column i))
  | format (w : Wrapper) : Effect s (.format w) [] (s.selection.cells.foldl (wrap w) s)
  | setTool (w : Option Wrapper) : Effect s (.setTool w) [] (s.setTool w)
  | escape : Effect s .escape [] (s.setTool none)
  | pointerEnter (c : Cell) {w : Wrapper} (h : s.tool = some w) : Effect s (.pointerEnter c) [] (s.wrap w c)
  | setGenerator (g : Option Generator) : Effect s (.setGenerator g) [] (s.setGenerator g)
  | request {s' : Sheet} {c : Cell} {r : Request} {t : Task} (h : s.request c r = .ok (s', t)) :
      Effect s (.request c r) [t.event s.grid] s'
  | generate {s' : Sheet} {c : Cell} {r : Request} {t : Task} (h : s.request c r = .ok (s', t)) :
      Effect s .generate [t.event s.grid] s'
  | complete (d : Completion) : Effect s (.complete d) [.completed d.ticket] (s.complete d).1
  | retry (c : Cell) : Effect s (.retry c) [] (s.retry c).1
  | render : Effect s .render ((s.requestAll (s.sights.flatten.filterMap s.due?)).2.map (Task.event s.grid))
      (s.requestAll (s.sights.flatten.filterMap s.due?)).1

theorem effect_settleDone {a : Action} {q : Except Error Sheet} (h : ∀ s', q = .ok s' → Effect s a [] s') :
    Effect s a ((s.settleDone q).2.tasks.map (Task.event s.grid)) (s.settleDone q).1 := by
  cases q with
  | error e => exact .failed a
  | ok s' => exact h s' rfl

theorem effect_settle {a : Action} {α : Type} {answer : α → Answer} {q : Except Error (Sheet × α)}
    (h : ∀ s' x, q = .ok (s', x) → Effect s a ((answer x).tasks.map (Task.event s.grid)) s') :
    Effect s a ((s.settle answer q).2.tasks.map (Task.event s.grid)) (s.settle answer q).1 := by
  rcases q with e | ⟨s', x⟩
  · exact .failed a
  · exact h s' x rfl

theorem act_effect (s : Sheet) (a : Action) : Effect s a (s.events a) (s.act a).1 := by
  cases a with
  | setCell c t =>
    simp only [events, act_setCell]
    refine effect_settleDone fun s' h => ?_
    obtain ⟨hc, rfl⟩ := setCell_eq_ok h
    exact .setCell hc
  | select c =>
    simp only [events, act_select]
    refine effect_settleDone fun s' h => ?_
    obtain ⟨raw, hraw, rfl⟩ := select_eq_ok h
    exact .select hraw
  | extend c =>
    simp only [events, act_extend]
    refine effect_settleDone fun s' h => ?_
    rcases extend_eq_ok h with ⟨hidle, h⟩ | ⟨hidle, rfl⟩
    · obtain ⟨raw, hraw, rfl⟩ := select_eq_ok h
      exact .first hidle hraw
    · exact .extend hidle
  | editBar t =>
    simp only [events, act_editBar]
    refine effect_settleDone fun s' h => ?_
    obtain ⟨c, hc, rfl⟩ := editBar_eq_ok h
    exact .editBar hc
  | eraseRow i =>
    -- an erasure is an event of its own, so the answers of a failure and a success differ here
    simp only [events, act_eraseRow]
    cases h : s.eraseRow i with
    | error e => exact .failed _
    | ok s' =>
      obtain ⟨hi, rfl⟩ := eraseRow_eq_ok h
      exact .eraseRow hi
  | eraseColumn i =>
    simp only [events, act_eraseColumn]
    cases h : s.eraseColumn i with
    | error e => exact .failed _
    | ok r =>
      obtain ⟨s', label⟩ := r
      obtain ⟨hlabel, rfl⟩ := eraseColumn_eq_ok h
      exact .eraseColumn hlabel
  | format w =>
    simp only [events, act_format]
    refine effect_settle fun s' n h => ?_
    rw [format_eq_ok h]
    exact .format w
  | pointerEnter c =>
    show Effect s _ [] (s.pointerEnter c).1
    unfold pointerEnter
    split
    · next w htool => exact .pointerEnter c htool
    · exact .failed _
  | request c r =>
    simp only [events, act_request]
    exact effect_settle fun s' t h => .request h
  | generate =>
    simp only [events, act_generate]
    refine effect_settle fun s' t h => ?_
    obtain ⟨c, r, hr⟩ := generate_eq_ok h
    exact .generate hr
  | clearSelection => exact .clearSelection
  | addRow => exact .addRow
  | addColumn => exact .addColumn
  | setTool w => exact .setTool w
  | escape => exact .escape
  | setGenerator g => exact .setGenerator g
  | complete d => exact .complete d
  | retry c => exact .retry c
  | render => exact .render

/-! ### What wrapping leaves alone -/

/-- Wrapping writes the grid and the bar only. -/
theorem exists_wrap_eq (w : Wrapper) (s : Sheet) (c : Cell) : ∃ grid bar, s.wrap w c = { s with grid, bar } := by
  unfold wrap
  split
  · exact ⟨_, _, rfl⟩
  · exact ⟨s.grid, s.bar, rfl⟩

theorem exists_foldl_wrap_eq (w : Wrapper) (cs : List Cell) (s : Sheet) :
    ∃ grid bar, cs.foldl (wrap w) s = { s with grid, bar } := by
  induction cs generalizing s with
  | nil => exact ⟨s.grid, s.bar, rfl⟩
  | cons c cs ih =>
    obtain ⟨grid, bar, hfirst⟩ := exists_wrap_eq w s c
    obtain ⟨grid', bar', hrest⟩ := ih (s.wrap w c)
    exact ⟨grid', bar', by rw [List.foldl_cons, hrest, hfirst]⟩

/-! ### Actions as chains of steps -/

theorem steps_wrap (w : Wrapper) (s : Sheet) (c : Cell) : Steps s [] (s.wrap w c) := by
  unfold wrap
  split
  · exact .of_step (.write s c _)
  · exact .refl s

theorem steps_foldl_wrap (w : Wrapper) (cs : List Cell) (s : Sheet) :
    Steps s [] (cs.foldl (wrap w) s) := by
  induction cs generalizing s with
  | nil => exact .refl s
  | cons c cs ih => exact (steps_wrap w s c).trans (ih _)

theorem grid_request (h : s.request c r = .ok (s', task)) : s'.grid = s.grid := by
  obtain ⟨raw, -, -, -, rfl⟩ := request_eq_ok h
  rfl

/-- The requests of a pass are dispatched from the grid that the pass began with. -/
theorem steps_requestAll (rs : List (Cell × Request)) (s : Sheet) :
    Steps s ((s.requestAll rs).2.map (Task.event s.grid)) (s.requestAll rs).1 := by
  induction rs generalizing s with
  | nil => exact .refl s
  | cons cr rs ih =>
    obtain ⟨c, r⟩ := cr
    rw [requestAll]
    split
    · exact ih s
    · next s1 task h =>
      have hrest := ih s1
      rw [grid_request h] at hrest
      exact (Steps.of_step (.dispatch h)).trans hrest

/-- What an action comes to is a chain of elementary steps. -/
theorem Effect.steps {a : Action} (h : Effect s a es s') : Steps s es s' := by
  cases h with
  | failed => exact .refl s
  | select | first | extend | clearSelection | setTool | escape | setGenerator =>
    exact .of_step (.still rfl rfl rfl rfl)
  | setCell | editBar => exact .of_step (.write s _ _)
  | addRow => exact .of_step (.addRow s)
  | addColumn => exact .of_step (.addColumn s)
  | eraseRow | eraseColumn => exact .of_step (.erase s _)
  | format w => exact steps_foldl_wrap w _ s
  | pointerEnter c => exact steps_wrap _ s c
  | request h | generate h => exact .of_step (.dispatch h)
  | complete d => exact .of_step (.complete s d)
  | retry c => exact .of_step (.retry s c)
  | render => exact steps_requestAll _ s

theorem act_steps (s : Sheet) (a : Action) : Steps s (s.events a) (s.act a).1 := (s.act_effect a).steps

theorem run_steps (s : Sheet) (as : List Action) : Steps s (s.history as) (s.run as) := by
  induction as generalizing s with
  | nil => exact .refl s
  | cons a as ih => exact (act_steps s a).trans (ih _)

end Sheet

end Spreadsheet
