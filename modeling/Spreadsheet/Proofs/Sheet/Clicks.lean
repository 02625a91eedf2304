import Mathlib.Data.List.Induction
import Spreadsheet.Proofs.Sheet.Failure

/-!
# The clicks behind a selection

`clicks` lists the clicks of a run that did not fail and the times that the selection was cleared. A selection is made by
them alone (`selection_run`), and of these only by the ones since it was last cleared: the last cell that was selected,
or the first one that was extended to, is the anchor, and the area reaches to the last cell that was extended to since
then, wherever it reached in between (`selection_of_clicks`).
-/

namespace Spreadsheet

/-- A click that made or changed a selection. -/
inductive Click
  | select (c : Cell)
  | extend (c : Cell)
  | clear
  deriving DecidableEq, Repr

/-- The answer is no error. -/
def Answer.succeeds : Answer → Bool
  | .failed _ => false
  | _ => true

namespace Click

/-- The clicks since the selection was last cleared. -/
def recent (l : List Click) : List Click := (l.reverse.takeWhile (· ≠ clear)).reverse

/-- The clicks make the cell the anchor, and then they extend the selection to the other cells, one after the other. -/
def Draws (l : List Click) (a : Cell) (cs : List Cell) : Prop :=
  l = extend a :: cs.map extend ∨ ∃ earlier, l = earlier ++ select a :: cs.map extend

theorem recent_snoc_clear (l : List Click) : recent (l ++ [clear]) = [] := by
  simp [recent]

theorem recent_snoc {k : Click} (hk : k ≠ clear) (l : List Click) : recent (l ++ [k]) = recent l ++ [k] := by
  simp [recent, hk]

theorem Draws.ne_nil {l : List Click} {a : Cell} {cs : List Cell} (h : Draws l a cs) : l ≠ [] := by
  rcases h with rfl | ⟨earlier, rfl⟩
  · exact List.cons_ne_nil _ _
  · exact List.append_ne_nil_of_right_ne_nil _ (List.cons_ne_nil _ _)

theorem Draws.snoc {l : List Click} {a c : Cell} {cs : List Cell} (h : Draws l a cs) :
    Draws (l ++ [extend c]) a (cs ++ [c]) := by
  rcases h with rfl | ⟨earlier, rfl⟩
  · exact .inl (by simp)
  · exact .inr ⟨earlier, by simp⟩

end Click

namespace Selection

def click (s : Selection) : Click → Selection
  | .select c => single c
  | .extend c => s.extend c
  | .clear => idle

/-- The selection is drawn from its anchor to the last of the cells, or is the anchor alone. -/
structure Reaches (s : Selection) (a : Cell) (cs : List Cell) : Prop where
  anchor : s.anchor? = some a
  area : s.area? = some (.spanning a (cs.getLast?.getD a))

theorem reaches_single (a : Cell) : (single a).Reaches a [] := ⟨rfl, rfl⟩

theorem Reaches.extend {s : Selection} {a c : Cell} {cs : List Cell} (h : s.Reaches a cs) :
    (s.extend c).Reaches a (cs ++ [c]) := by
  rw [Selection.extend, h.anchor]
  exact ⟨rfl, by simp [area?]⟩

/-- What the clicks since the last time that it was cleared make of a selection. -/
theorem foldl_click (l : List Click) :
    (Click.recent l = [] ∧ l.foldl click idle = idle) ∨
      ∃ a cs, Click.Draws (Click.recent l) a cs ∧ (l.foldl click idle).Reaches a cs := by
  -- along the clicks: a click on a cell starts anew, an extension adds to the cells or starts from nothing
  induction l using List.reverseRecOn with
  | nil => exact .inl ⟨rfl, rfl⟩
  | append_singleton l k ih =>
    rw [List.foldl_append, List.foldl_cons, List.foldl_nil]
    cases k with
    | select c =>
      rw [Click.recent_snoc Click.noConfusion]
      exact .inr ⟨c, [], .inr ⟨_, rfl⟩, reaches_single c⟩
    | clear => exact .inl ⟨Click.recent_snoc_clear l, rfl⟩
    | extend c =>
      rw [Click.recent_snoc Click.noConfusion]
      rcases ih with ⟨hrecent, hidle⟩ | ⟨a, cs, hdraws, hreaches⟩
      · rw [hrecent, hidle]
        exact .inr ⟨c, [], .inl rfl, reaches_single c⟩
      · exact .inr ⟨a, cs ++ [c], hdraws.snoc, hreaches.extend⟩

end Selection

namespace Sheet

variable {s : Sheet}

/-- The click that an action is, unless it fails. -/
def click? (s : Sheet) : Action → Option Click
  | .select c => if (s.act (.select c)).2.succeeds then some (.select c) else none
  | .extend c => if (s.act (.extend c)).2.succeeds then some (.extend c) else none
  | .clearSelection => some .clear
  | _ => none

/-- The clicks of a run that did not fail. -/
def clicks (s : Sheet) : List Action → List Click
  | [] => []
  | a :: as => (s.click? a).toList ++ (s.act a).1.clicks as

theorem succeeds_settleDone {r : Except Error Sheet} : (s.settleDone r).2.succeeds = (error? r).isNone := by
  cases r <;> rfl

/-- A click does not fail exactly if its cell is in the grid by then. -/
theorem click?_select (h : s.Sound) (c : Cell) :
    s.click? (.select c) = if s.grid.contains c then some (.select c) else none := by
  rw [click?, act_select, succeeds_settleDone, h.error?_select]
  split <;> rfl

theorem click?_extend (h : s.Sound) (c : Cell) :
    s.click? (.extend c) = if s.grid.contains c then some (.extend c) else none := by
  rw [click?, act_extend, succeeds_settleDone, h.error?_extend]
  split <;> rfl

/-- An action changes the selection as the click that it is, and not at all if it is none or fails. -/
theorem selection_act_eq_foldl (h : s.Sound) (a : Action) :
    (s.act a).1.selection = (s.click? a).toList.foldl Selection.click s.selection := by
  rw [selection_act h]
  cases a with
  | select c =>
    rw [click?_select h, selected]
    split <;> rfl
  | extend c =>
    rw [click?_extend h, selected]
    split <;> rfl
  | _ => rfl

theorem selection_run (h : s.Sound) (as : List Action) :
    (s.run as).selection = (s.clicks as).foldl Selection.click s.selection := by
  induction as generalizing s with
  | nil => rfl
  | cons a as ih =>
    have hnext : (s.act a).1.Sound := h.steps (act_steps s a)
    rw [run_cons, ih hnext, selection_act_eq_foldl h, clicks, List.foldl_append]

/-- After every run of actions nothing is selected if and only if no click succeeded since the selection was last
cleared. Otherwise the anchor is the last cell that was selected since then, or if none was, the first one that was
extended to, and the area spans from the anchor to the last cell that was extended to after it, or is the anchor alone.
Nothing but these clicks matters: no extension in between, no click that failed, and nothing else that was done. -/
theorem selection_of_clicks (o : Options) (as : List Action) :
    let recent := Click.recent ((new o).clicks as)
    let selection := ((new o).run as).selection
    (selection = .idle ↔ recent = []) ∧
      (recent = [] ∨ ∃ a cs, Click.Draws recent a cs ∧ selection.anchor? = some a ∧
        selection.area? = some (.spanning a (cs.getLast?.getD a))) := by
  intro recent selection
  have hselection : selection = ((new o).clicks as).foldl Selection.click .idle := selection_run (sound_new o) as
  rcases Selection.foldl_click ((new o).clicks as) with ⟨hrecent, hidle⟩ | ⟨a, cs, hdraws, hreaches⟩
  · exact ⟨iff_of_true (hselection.trans hidle) hrecent, .inl hrecent⟩
  · rw [← hselection] at hreaches
    refine ⟨iff_of_false (fun hidle => ?_) hdraws.ne_nil, .inr ⟨a, cs, hdraws, hreaches.anchor, hreaches.area⟩⟩
    have hanchor := hreaches.anchor
    rw [hidle] at hanchor
    cases hanchor

/-- The anchor outlives its row, two clicks fail, and the area reaches to the last cell only. -/
example : ((new { rows := 3, cols := 2 }).run [.select ⟨9, 0⟩, .extend ⟨2, 1⟩, .extend ⟨0, 0⟩, .eraseRow 2,
    .extend ⟨2, 0⟩, .extend ⟨1, 1⟩]).selection = .range ⟨2, 1⟩ ⟨1, 2, 1, 1⟩ := by
  decide +kernel

end Sheet

end Spreadsheet
