import Spreadsheet.Proofs.Sheet.Selection

/-!
# Operations that fail

`refusal?` says from the state of a sheet alone whether an action fails and with which error. After every run
an action fails exactly as it says (`act_failed_iff_refused`), and although the operations work in place, one that
fails leaves the whole sheet as it was (`act_of_failed`). An anchor that was erased stands in nobody's way but
those who ask for the cell itself.
-/

namespace Spreadsheet.Sheet

variable {s s' : Sheet} {e : Error}

/-- Why nothing can be requested for a cell. Without a generator it does not matter which cell it is. -/
def requestRefusal? (s : Sheet) (c : Cell) : Option Error :=
  if s.generator.isNone then some (.generation .unavailable)
  else if s.grid.contains c then none else some (.cellOutside c)

/-- Why an action fails. -/
def refusal? (s : Sheet) : Action → Option Error
  | .setCell c _ | .select c | .extend c => if s.grid.contains c then none else some (.cellOutside c)
  | .editBar _ | .format _ => if s.selection = .idle then some .nothingSelected else none
  | .eraseRow i => if i < s.grid.height then none else some (.rowOutside i s.grid.height)
  | .eraseColumn i => if i < s.grid.width then none else some (.columnOutside i s.grid.width)
  | .request c _ => s.requestRefusal? c
  | .generate =>
    match s.selection.anchor? with
    | none => some .nothingSelected
    | some c => s.requestRefusal? c
  | _ => none

/-! ### Failures leave the sheet alone -/

/-- The step does not change the sheet if it answers with an error. -/
def Intact (s : Sheet) (r : Sheet × Answer) : Prop := ∀ e, r.2 = .failed e → r.1 = s

theorem intact_settleDone (s : Sheet) (r : Except Error Sheet) : s.Intact (s.settleDone r) := by
  cases r with
  | error e => exact fun _ _ => rfl
  | ok s' => exact fun _ h => nomatch h

theorem intact_settle {α : Type} {answer : α → Answer} (h : ∀ a e, answer a ≠ .failed e) (s : Sheet)
    (r : Except Error (Sheet × α)) : s.Intact (s.settle answer r) := by
  rcases r with e | ⟨s', a⟩
  · exact fun _ _ => rfl
  · exact fun e he => absurd he (h a e)

theorem act_of_failed (s : Sheet) (a : Action) : s.Intact (s.act a) := by
  cases a with
  | setCell c t => rw [act_setCell]; exact intact_settleDone _ _
  | select c => rw [act_select]; exact intact_settleDone _ _
  | extend c => rw [act_extend]; exact intact_settleDone _ _
  | editBar t => rw [act_editBar]; exact intact_settleDone _ _
  | eraseRow i => rw [act_eraseRow]; exact intact_settleDone _ _
  | eraseColumn i => rw [act_eraseColumn]; exact intact_settle (fun _ _ => Answer.noConfusion) _ _
  | format w => rw [act_format]; exact intact_settle (fun _ _ => Answer.noConfusion) _ _
  | request c r => rw [act_request]; exact intact_settle (fun _ _ => Answer.noConfusion) _ _
  | generate => rw [act_generate]; exact intact_settle (fun _ _ => Answer.noConfusion) _ _
  | _ => exact fun _ h => nomatch h

/-! ### When an operation fails -/

/-- The error of a function that returns no sheet when it fails. -/
def error? {α : Type} : Except Error α → Option Error
  | .ok _ => none
  | .error e => some e

theorem settleDone_failed_iff {r : Except Error Sheet} : (s.settleDone r).2 = .failed e ↔ error? r = some e := by
  cases r <;> simp [settleDone, error?]

theorem settle_failed_iff {α : Type} {answer : α → Answer} (h : ∀ a e, answer a ≠ .failed e)
    {r : Except Error (Sheet × α)} : (s.settle answer r).2 = .failed e ↔ error? r = some e := by
  rcases r with e' | ⟨s', a⟩
  · simp [settle, error?]
  · simp [settle, error?, h]

namespace Sound

variable (h : s.Sound)
include h

theorem error?_setCell (c : Cell) (t : Text) :
    error? (s.setCell c t) = if s.grid.contains c then none else some (.cellOutside c) := by
  rw [setCell]
  simp only [h.wf.contains_iff]
  split <;> rfl

theorem error?_select (c : Cell) :
    error? (s.select c) = if s.grid.contains c then none else some (.cellOutside c) := by
  rw [select]
  simp only [h.wf.contains_iff]
  cases s.grid.raw? c <;> rfl

/-- Where the cell is in the grid, selecting it does not fail either. -/
theorem error?_extend (c : Cell) :
    error? (s.extend c) = if s.grid.contains c then none else some (.cellOutside c) := by
  rw [extend]
  split
  · next hc =>
    split
    · rw [h.error?_select, if_pos hc]
    · rfl
  · rfl

theorem error?_request (c : Cell) (r : Request) : error? (s.request c r) = s.requestRefusal? c := by
  rw [request, requestRefusal?]
  simp only [h.wf.contains_iff]
  cases s.generator with
  | none => rfl
  | some generator => cases s.grid.raw? c <;> rfl

theorem error?_generate : error? s.generate = match s.selection.anchor? with
    | none => some .nothingSelected
    | some c => s.requestRefusal? c := by
  rw [generate]
  cases s.selection.anchor? with
  | none => rfl
  | some c => exact h.error?_request c _

end Sound

theorem error?_eraseRow (s : Sheet) (i : Nat) :
    error? (s.eraseRow i) = if i < s.grid.height then none else some (.rowOutside i s.grid.height) := by
  rw [eraseRow]
  split <;> rfl

theorem error?_eraseColumn (s : Sheet) (i : Nat) :
    error? (s.eraseColumn i) = if i < s.grid.width then none else some (.columnOutside i s.grid.width) := by
  rw [eraseColumn]
  by_cases hi : i < s.grid.width
  · rw [List.getElem?_eq_getElem hi, if_pos hi]; rfl
  · rw [List.getElem?_eq_none (Nat.not_lt.1 hi), if_neg hi]; rfl

theorem error?_editBar (s : Sheet) (t : Text) :
    error? (s.editBar t) = if s.selection = .idle then some .nothingSelected else none := by
  rw [editBar]
  cases s.selection <;> rfl

/-- What is selected has cells, so formatting fails only if nothing is selected. -/
theorem error?_format (h : s.selection.Drawn) (w : Wrapper) :
    error? (s.format w) = if s.selection = .idle then some .nothingSelected else none := by
  rw [format]
  simp only [List.isEmpty_iff, h.cells_eq_nil_iff]
  split <;> rfl

/-- After every run an action fails exactly where it is refused and with the error of the refusal, and then the
whole sheet is as it was. -/
theorem act_failed_iff_refused (o : Options) (as : List Action) (a : Action) :
    let s := (new o).run as
    (∀ e, (s.act a).2 = .failed e ↔ s.refusal? a = some e) ∧ (s.refusal? a ≠ none → (s.act a).1 = s) := by
  intro s
  have h : s.Sound := sound_run o as
  have hiff : ∀ e, (s.act a).2 = .failed e ↔ s.refusal? a = some e := by
    intro e
    cases a with
    | setCell c t => rw [act_setCell, settleDone_failed_iff, h.error?_setCell]; rfl
    | select c => rw [act_select, settleDone_failed_iff, h.error?_select]; rfl
    | extend c => rw [act_extend, settleDone_failed_iff, h.error?_extend]; rfl
    | editBar t => rw [act_editBar, settleDone_failed_iff, error?_editBar]; rfl
    | eraseRow i => rw [act_eraseRow, settleDone_failed_iff, error?_eraseRow]; rfl
    | eraseColumn i => rw [act_eraseColumn, settle_failed_iff fun _ _ => Answer.noConfusion, error?_eraseColumn]; rfl
    | format w =>
      rw [act_format, settle_failed_iff fun _ _ => Answer.noConfusion, error?_format (drawn_run o as)]; rfl
    | request c r => rw [act_request, settle_failed_iff fun _ _ => Answer.noConfusion, h.error?_request]; rfl
    | generate => rw [act_generate, settle_failed_iff fun _ _ => Answer.noConfusion, h.error?_generate]; rfl
    | _ => exact ⟨nofun, nofun⟩
  refine ⟨hiff, fun hrefused => ?_⟩
  obtain ⟨e, he⟩ := Option.ne_none_iff_exists'.1 hrefused
  exact act_of_failed s a e ((hiff e).2 he)

/-- The anchor was erased: its cell takes no text and keeps the sheet from changing, but the bar still does take
one. -/
theorem erased_anchor_refuses_text :
    let s := (new { rows := 1, cols := 1 }).run [.select ⟨0, 0⟩, .eraseRow 0]
    (s.act (.setCell ⟨0, 0⟩ "x".toList)).2 = .failed (.cellOutside ⟨0, 0⟩) ∧
      (s.act (.setCell ⟨0, 0⟩ "x".toList)).1 = s ∧
      ∀ e, (s.act (.editBar "x".toList)).2 ≠ .failed e := by
  intro s
  have hset := act_failed_iff_refused { rows := 1, cols := 1 } [.select ⟨0, 0⟩, .eraseRow 0]
    (.setCell ⟨0, 0⟩ "x".toList)
  have hedit := act_failed_iff_refused { rows := 1, cols := 1 } [.select ⟨0, 0⟩, .eraseRow 0] (.editBar "x".toList)
  have hrefused : s.refusal? (.setCell ⟨0, 0⟩ "x".toList) = some (.cellOutside ⟨0, 0⟩) := by decide
  have htaken : s.refusal? (.editBar "x".toList) = none := by decide
  refine ⟨(hset.1 _).2 hrefused, hset.2 (by rw [hrefused]; exact Option.some_ne_none _), fun e he => ?_⟩
  exact Option.some_ne_none e (((hedit.1 e).1 he).symm.trans htaken)

end Spreadsheet.Sheet
