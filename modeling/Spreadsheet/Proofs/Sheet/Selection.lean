import Spreadsheet.Proofs.Sheet.Sound

/-!
# What is selected

Only a click changes the selection (`selection_act`): whatever else is done to a sheet, and whatever fails,
leaves it as it is. The area of a range is drawn from its anchor (`drawn_run`), so what is selected has
cells, whether or not they lie in the grid by now.
-/

namespace Spreadsheet

namespace Selection

/-- The area of a range spans from its anchor to some cell. -/
def Drawn : Selection → Prop
  | range a area => ∃ c, area = .spanning a c
  | _ => True

theorem Drawn.extend (s : Selection) (c : Cell) : (s.extend c).Drawn := by
  cases s with
  | idle => trivial
  | single a => exact ⟨c, rfl⟩
  | range a area => exact ⟨c, rfl⟩

/-- Nothing is selected if and only if there are no selected cells. -/
theorem Drawn.cells_eq_nil_iff {s : Selection} (h : s.Drawn) : s.cells = [] ↔ s = .idle := by
  have hne (a c : Cell) : (Area.spanning a c).cells ≠ [] := List.ne_nil_of_mem (Area.mem_spanning_left a c)
  cases s with
  | idle => simp [cells, area?]
  | single a => simpa [cells, area?, Area.single] using hne a a
  | range a area =>
    obtain ⟨c, rfl⟩ := h
    simpa [cells, area?] using hne a c

end Selection

def Action.IsClick : Action → Prop
  | .select _ | .extend _ | .clearSelection => True
  | _ => False

namespace Sheet

variable {s s' : Sheet} {c : Cell} {r : Request} {t : Task}

/-- The selection after an action. -/
def selected (s : Sheet) : Action → Selection
  | .select c => if s.grid.contains c then .single c else s.selection
  | .extend c => if s.grid.contains c then s.selection.extend c else s.selection
  | .clearSelection => .idle
  | _ => s.selection

/-! ### Operations that select nothing -/

theorem selection_request (h : s.request c r = .ok (s', t)) : s'.selection = s.selection := by
  obtain ⟨raw, -, -, -, rfl⟩ := request_eq_ok h
  rfl

theorem selection_requestAll (rs : List (Cell × Request)) (s : Sheet) :
    (s.requestAll rs).1.selection = s.selection := by
  obtain ⟨pending, failed, h⟩ := exists_requestAll_eq rs s
  rw [h]

theorem selection_complete (s : Sheet) (d : Completion) : (s.complete d).1.selection = s.selection := by
  unfold complete
  split
  · rfl
  · dsimp only
    split <;> rfl

/-! ### Clicks -/

theorem selection_select (h : s.Sound) (c : Cell) : (s.settleDone (s.select c)).1.selection =
    if s.grid.contains c then .single c else s.selection := by
  rw [select]
  cases hraw : s.grid.raw? c with
  | some raw => rw [if_pos (h.wf.contains_of_raw? hraw)]; rfl
  | none =>
    have hout : ¬ s.grid.contains c := by simp [h.wf.contains_iff, hraw]
    rw [if_neg hout]; rfl

theorem selection_extend (h : s.Sound) (c : Cell) : (s.settleDone (s.extend c)).1.selection =
    if s.grid.contains c then s.selection.extend c else s.selection := by
  rw [extend]
  by_cases hc : s.grid.contains c
  · rw [if_pos hc, if_pos hc]
    cases hs : s.selection with
    | idle => exact (selection_select h c).trans (if_pos hc)
    | single a => rfl
    | range a area => rfl
  · rw [if_neg hc, if_neg hc]; rfl

theorem Effect.selection_eq {a : Action} {es : List Event} (h : Effect s a es s') (ha : ¬ a.IsClick) :
    s'.selection = s.selection := by
  cases h with
  | select | first | extend | clearSelection => exact absurd trivial ha
  | format w =>
    obtain ⟨grid, bar, h⟩ := exists_foldl_wrap_eq w s.selection.cells s
    rw [h]
  | pointerEnter c =>
    obtain ⟨grid, bar, h⟩ := exists_wrap_eq _ s c
    rw [h]
  | request h | generate h => exact selection_request h
  | complete d => exact selection_complete s d
  | render => exact selection_requestAll _ s
  | _ => rfl

/-- Only a click changes the selection. -/
theorem selection_act (h : s.Sound) (a : Action) : (s.act a).1.selection = s.selected a := by
  cases a with
  | select c => rw [act_select, selection_select h]; rfl
  | extend c => rw [act_extend, selection_extend h]; rfl
  | clearSelection => rfl
  | _ => exact (s.act_effect _).selection_eq id

/-- After every run the selection is drawn from its anchor. -/
theorem drawn_run (o : Options) (as : List Action) : ((new o).run as).selection.Drawn := by
  have hboth : ((new o).run as).Sound ∧ ((new o).run as).selection.Drawn := by
    refine Reachable.induction (P := fun s => s.Sound ∧ s.selection.Drawn) (fun o => ⟨sound_new o, trivial⟩) ?_
      ⟨o, as, rfl⟩
    rintro s a ⟨hs, hd⟩
    refine ⟨hs.steps (act_steps s a), ?_⟩
    rw [selection_act hs]
    unfold selected
    split
    · split
      · trivial
      · exact hd
    · split
      · exact .extend _ _
      · exact hd
    · trivial
    · exact hd
  exact hboth.2

end Sheet

end Spreadsheet
