import Mathlib.Data.List.Induction
import Spreadsheet.Proofs.Sheet.Step
import Spreadsheet.Proofs.Grid

/-!
# Where the content of a grid comes from

`Edit.follow` moves a cell through the edits of a history. Whatever a cell holds was written into it and has moved
along with it since (`exists_set_of_raw_ne`), so what has been erased never comes back. A new column in particular is
empty and has a label of its own: the first one, in the order of the labels and from the place of the column on, that
is not in use, which is found within one look more than there are columns (`addColumn_after_edits`).
-/

namespace Spreadsheet

namespace Grid

namespace Edit

/-- Where a cell is after an edit, unless it has been erased. -/
def moved? : Edit → Cell → Option Cell
  | .eraseRow i, c => (Erasure.row i).moved? c
  | .eraseColumn i, c => (Erasure.column i).moved? c
  | .set _ _, c | .addRow, c | .addColumn, c => some c

/-- Where a cell is after some edits, unless it has been erased. -/
def follow : List Edit → Cell → Option Cell
  | [], c => some c
  | e :: es, c => (e.moved? c).bind (follow es)

theorem follow_snoc (es : List Edit) (e : Edit) (c : Cell) : follow (es ++ [e]) c = (follow es c).bind e.moved? := by
  induction es generalizing c with
  | nil =>
    exact Option.bind_fun_some _
  | cons x es ih =>
    show (x.moved? c).bind (follow (es ++ [e])) = ((x.moved? c).bind (follow es)).bind e.moved?
    rw [Option.bind_assoc]
    congr
    exact funext ih

end Edit

variable {g : Grid}

theorem edits_snoc (g : Grid) (es : List Edit) (e : Edit) : g.edits (es ++ [e]) = (g.edits es).edit e := by
  rw [edits, List.foldl_append]
  rfl

/-! ### Content -/

theorem raw_empty (rows cols : Nat) (c : Cell) : (empty rows cols).raw c = [] := by
  simp only [raw, raw?, empty, List.getElem?_replicate]
  split
  · simp only [Option.bind_some, List.getElem?_replicate]
    split <;> rfl
  · rfl

/-- What a cell holds after an edit has just been set, or it was held before by the cell that has moved here. -/
theorem raw_edit_of_ne_nil {e : Edit} {c : Cell} (h : (g.edit e).raw c ≠ []) :
    e = .set c ((g.edit e).raw c) ∨ ∃ d, e.moved? d = some c ∧ (g.edit e).raw c = g.raw d := by
  cases e with
  | set d t =>
    by_cases hcd : c = d
    · subst hcd
      refine .inl ?_
      show Edit.set c t = .set c ((g.set c t).raw c)
      cases hraw : g.raw? c with
      | none =>
        refine absurd ?_ h
        show (g.set c t).raw c = []
        rw [set_of_raw?_eq_none hraw, raw, hraw]
        rfl
      | some old =>
        rw [raw, raw?_set_self (by rw [hraw]; rfl)]
        rfl
    · exact .inr ⟨c, rfl, raw_set_of_ne hcd⟩
  | addRow => exact .inr ⟨c, rfl, raw_addRow g c⟩
  | addColumn => exact .inr ⟨c, rfl, raw_addColumn g c⟩
  | eraseRow i => exact .inr ⟨_, Erasure.moved?_source (.row i) c, congrArg (·.getD []) (raw?_erase g (.row i) c)⟩
  | eraseColumn i =>
    exact .inr ⟨_, Erasure.moved?_source (.column i) c, congrArg (·.getD []) (raw?_erase g (.column i) c)⟩

/-- Whatever a cell holds was written into it and has moved along with it since. -/
theorem exists_set_of_raw_ne (rows cols : Nat) (es : List Edit) {c : Cell}
    (h : ((empty rows cols).edits es).raw c ≠ []) : ∃ before d later,
      es = before ++ .set d (((empty rows cols).edits es).raw c) :: later ∧ Edit.follow later d = some c := by
  induction es using List.reverseRecOn generalizing c with
  | nil => exact absurd (raw_empty rows cols c) h
  | append_singleton es e ih =>
    rw [edits_snoc] at h ⊢
    rcases raw_edit_of_ne_nil h with he | ⟨b, hmoved, hraw⟩
    · exact ⟨es, c, [], by rw [← he], rfl⟩
    · rw [hraw] at h ⊢
      obtain ⟨before, d, later, hes, hfollow⟩ := ih h
      refine ⟨before, d, later ++ [e], ?_, ?_⟩
      · rw [← List.cons_append, ← List.append_assoc, ← hes]
      · rw [Edit.follow_snoc, hfollow]
        exact hmoved

/-! ### New columns -/

theorem Wf.raw?_new_column (h : g.Wf) {r : Nat} (hr : r < g.height) : g.addColumn.raw? ⟨r, g.width⟩ = some [] := by
  obtain ⟨row, hrow⟩ : ∃ row, g.rows[r]? = some row := ⟨_, List.getElem?_eq_getElem hr⟩
  have hlength : row.length = g.width := h.full row (List.mem_of_getElem? hrow)
  simp only [raw?, Grid.addColumn, List.getElem?_map, hrow, Option.map_some, Option.bind_some]
  rw [← hlength, List.getElem?_concat_length]

theorem Wf.raw?_addColumn_of_contains (h : g.Wf) {c : Cell} (hc : g.contains c = true) :
    g.addColumn.raw? c = g.raw? c := by
  obtain ⟨t, ht⟩ := h.raw?_isSome hc
  rw [ht]
  exact raw?_addColumn ht

end Grid

/-! ### The grids of sheets -/

namespace Sheet

/-- A step edits the grid at most once. -/
theorem Step.exists_edits {s s' : Sheet} {es : List Event} (h : Step s es s') :
    ∃ edits, s'.grid = s.grid.edits edits := by
  cases h with
  | still grid => exact ⟨[], grid⟩
  | write c t => exact ⟨[.set c t], rfl⟩
  | addRow => exact ⟨[.addRow], rfl⟩
  | addColumn => exact ⟨[.addColumn], rfl⟩
  | erase e =>
    cases e with
    | row i => exact ⟨[.eraseRow i], rfl⟩
    | column i => exact ⟨[.eraseColumn i], rfl⟩
  | dispatch h => exact ⟨[], grid_request h⟩
  | complete d =>
    unfold Sheet.complete
    split
    · exact ⟨[], rfl⟩
    · next p _ =>
      dsimp only
      split
      · exact ⟨[], rfl⟩
      · exact ⟨[], rfl⟩
      · exact ⟨[.set p.cell _], rfl⟩
  | retry c => exact ⟨[], rfl⟩

/-- The grid of a sheet has a history of edits. -/
theorem exists_edits_run (o : Options) (as : List Action) :
    ∃ edits, ((new o).run as).grid = (Grid.empty o.rows o.cols).edits edits := by
  refine (run_steps (new o) as).induction (P := fun s => ∃ edits, s.grid = (Grid.empty o.rows o.cols).edits edits)
    (fun {s es s'} hstep hs => ?_) ⟨[], rfl⟩
  obtain ⟨before, hbefore⟩ := hs
  obtain ⟨edits, hedits⟩ := hstep.exists_edits
  refine ⟨before ++ edits, ?_⟩
  rw [hedits, hbefore]
  exact List.foldl_append.symm

end Sheet

namespace Grid

/-- After every history of edits a new column gets the first label from the place of the column on that no column
carries; the search for it ends after one look more than the labels that it skips, and so after at most one more than
there are columns. The labels and the contents of the other columns stay, and the new one is empty in every row. In the
whole history no content is ever back after it was erased: what a cell holds was written into it, and the cell has not
been erased since. The grids of sheets have such histories. -/
theorem addColumn_after_edits (rows cols : Nat) (es : List Edit) :
    let g := (empty rows cols).edits es
    (∃ skipped ≤ g.width,
      (∀ looked label, Label.Searches g.headers g.width looked label ↔ looked = skipped + 1 ∧ label = g.nextLabel) ∧
      g.nextLabel = Label.ofIndex (g.width + skipped) ∧ g.nextLabel ∉ g.headers ∧
      ∀ j < skipped, Label.ofIndex (g.width + j) ∈ g.headers) ∧
    (g.addColumn.headers = g.headers ++ [g.nextLabel] ∧ g.addColumn.height = g.height ∧
      (∀ c, g.contains c = true → g.addColumn.raw? c = g.raw? c) ∧
      ∀ r < g.height, g.addColumn.raw? ⟨r, g.width⟩ = some []) ∧
    (∀ c, g.raw c ≠ [] → ∃ before d later,
      es = before ++ .set d (g.raw c) :: later ∧ Edit.follow later d = some c) ∧
    ∀ o as, ∃ es, ((Sheet.new o).run as).grid = (empty o.rows o.cols).edits es := by
  intro g
  have hwf : g.Wf := (wf_empty rows cols).edits es
  refine ⟨?_, ⟨rfl, List.length_map _, fun c hc => hwf.raw?_addColumn_of_contains hc, fun r hr => hwf.raw?_new_column hr⟩,
    fun c hc => exists_set_of_raw_ne rows cols es hc, Sheet.exists_edits_run⟩
  obtain ⟨skipped, hle, hlabel, hbefore, hfree⟩ := Label.exists_free g.headers
  have hsearch : Label.Searches g.headers g.width (skipped + 1) g.nextLabel := by
    rw [nextLabel, hlabel]
    exact Label.searches_of hbefore hfree
  refine ⟨skipped, hle, fun looked label => ⟨fun h => h.functional hsearch, ?_⟩, hlabel, Label.free_not_mem _, hbefore⟩
  rintro ⟨rfl, rfl⟩
  exact hsearch

/-- Of the columns `A`, `B` and `C` the second is erased with its text. The column that comes next is the third, but its
label is in use, so the second look finds `D`. -/
theorem addColumn_after_edits_skips :
    let g := (empty 1 3).edits [.set ⟨0, 1⟩ "x".toList, .eraseColumn 1]
    Label.Searches g.headers g.width 2 "D".toList ∧ g.addColumn.raw? ⟨0, 2⟩ = some [] := by
  intro g
  obtain ⟨⟨skipped, -, hsearch, hlabel, -⟩, ⟨-, -, -, hempty⟩, -, -⟩ :=
    addColumn_after_edits 1 3 [.set ⟨0, 1⟩ "x".toList, .eraseColumn 1]
  have hwidth : g.width = 2 := by decide +kernel
  have hnext : g.nextLabel = Label.ofIndex 3 := by decide +kernel
  have hskipped : skipped = 1 := by
    have hindex : g.width + skipped = 3 := Label.ofIndex_injective (hlabel.symm.trans hnext)
    omega
  refine ⟨(hsearch 2 _).2 ⟨by omega, ?_⟩, hempty 0 (by decide +kernel)⟩
  rw [hnext]
  decide +kernel

end Grid

end Spreadsheet
