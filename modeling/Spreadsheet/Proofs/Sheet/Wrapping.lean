import Spreadsheet.Proofs.Sheet.Bar
import Spreadsheet.Proofs.Sheet.Format

/-!
# Formatting what is selected

The selected cells are listed once each, so the tool goes once around every one of them that lies in the grid, and the
count is the number of cells of the grid that are selected (`length_selected`): fewer than the area has after an
erasure, and perhaps none. The anchor is selected, so the bar shows its new text however stale it was before
(`mirrors_foldl_wrap`), unless the anchor is not in the grid any more (`bar_foldl_wrap`).
-/

namespace Spreadsheet

namespace Selection

variable {s : Selection} {c : Cell}

theorem mem_cells : c ∈ s.cells ↔ s.contains c = true := by
  cases s with
  | idle => simp [cells, contains, area?]
  | single a => simp [cells, contains, area?, Area.mem_cells]
  | range a area => simp [cells, contains, area?, Area.mem_cells]

theorem Drawn.contains_anchor (h : s.Drawn) (hc : s.anchor? = some c) : s.contains c = true := by
  rw [← mem_cells]
  cases s with
  | idle => cases hc
  | single a =>
    obtain rfl := Option.some.inj hc
    exact Area.mem_spanning_left a a
  | range a area =>
    obtain rfl := Option.some.inj hc
    obtain ⟨d, rfl⟩ := h
    exact Area.mem_spanning_left a d

end Selection

namespace Sheet

variable {s : Sheet} {c : Cell} {cs : List Cell} {w : Wrapper}

theorem isSome_raw?_foldl_wrap (w : Wrapper) (cs : List Cell) (s : Sheet) (c : Cell) :
    ((cs.foldl (wrap w) s).grid.raw? c).isSome = (s.grid.raw? c).isSome := by
  induction cs generalizing s with
  | nil => rfl
  | cons d cs ih => rw [List.foldl_cons, ih, Change.isSome_raw?_wrap]

theorem anchor?_foldl_wrap (w : Wrapper) (cs : List Cell) (s : Sheet) :
    (cs.foldl (wrap w) s).selection.anchor? = s.selection.anchor? := by
  obtain ⟨grid, bar, h⟩ := exists_foldl_wrap_eq w cs s
  rw [h]

/-- Wrapping an anchor in the grid loads the bar. -/
theorem mirrors_wrap (hanchor : s.selection.anchor? = some c) (hc : (s.grid.raw? c).isSome) : (s.wrap w c).Mirrors := by
  obtain ⟨raw, hraw⟩ := Option.isSome_iff_exists.1 hc
  intro d hd
  have hwrap : s.wrap w c = s.write c (w.apply raw) := by rw [wrap, hraw]
  rw [hwrap] at hd ⊢
  obtain rfl : c = d := Option.some.inj (hanchor.symm.trans hd)
  show (s.grid.set c (w.apply raw)).raw? c = some (if s.selection.anchor? = some c then w.apply raw else s.bar)
  rw [Grid.raw?_set_self hc, if_pos hanchor]

theorem mirrors_foldl_wrap (hanchor : s.selection.anchor? = some c) (hc : (s.grid.raw? c).isSome) (hmem : c ∈ cs) :
    (cs.foldl (wrap w) s).Mirrors := by
  obtain ⟨before, after, rfl⟩ := List.append_of_mem hmem
  rw [List.foldl_append, List.foldl_cons]
  refine Mirrors.foldl_wrap (mirrors_wrap ?_ ?_) w after
  · rw [anchor?_foldl_wrap, hanchor]
  · rw [isSome_raw?_foldl_wrap, hc]

/-- An anchor outside the grid is not wrapped, so the bar stays. -/
theorem bar_foldl_wrap (hanchor : s.selection.anchor? = some c) (hc : s.grid.raw? c = none) :
    (cs.foldl (wrap w) s).bar = s.bar := by
  induction cs generalizing s with
  | nil => rfl
  | cons d cs ih =>
    have hnone : (s.wrap w d).grid.raw? c = none := by
      rw [← Option.isNone_iff_eq_none, ← Option.not_isSome, Change.isSome_raw?_wrap, hc]
      rfl
    have hstill : (s.wrap w d).selection.anchor? = some c := (anchor?_foldl_wrap w [d] s).trans hanchor
    rw [List.foldl_cons, ih hstill hnone, wrap]
    split
    · next raw hraw =>
      refine if_neg fun hd => ?_
      obtain rfl := Option.some.inj (hanchor.symm.trans hd)
      rw [hc] at hraw
      cases hraw
    · rfl

/-- As many cells are wrapped as cells of the grid are selected. -/
theorem length_selected (h : s.grid.Wf) :
    (s.selection.cells.filter fun c => (s.grid.raw? c).isSome).length =
      (s.grid.cells.filter fun c => s.selection.contains c).length := by
  refine List.Perm.length_eq ((List.perm_ext_iff_of_nodup ((nodup_selected s.selection).filter _)
    (s.grid.nodup_cells.filter _)).2 fun c => ?_)
  rw [List.mem_filter, List.mem_filter, Selection.mem_cells, Grid.mem_cells, h.contains_iff, and_comm]

/-- Formatting a selection does not fail. It puts the wrapper once around the raw text of every selected cell of the
grid, whichever it is, and answers how many these are. The other cells, the shape of the grid, its labels, the selection
and the account of generated content stay, and the bar shows the new text of the anchor, or what it showed if the anchor
lies outside the grid. -/
theorem format_wraps_selected (h : s.Reachable) (hselected : s.selection ≠ .idle) (w : Wrapper) :
    let s' := (s.act (.format w)).1
    (s.act (.format w)).2 = .count (s.grid.cells.filter fun c => s.selection.contains c).length ∧
    (∀ c, s'.grid.raw? c = (s.grid.raw? c).map fun raw => if s.selection.contains c then w.apply raw else raw) ∧
    (s'.grid.headers = s.grid.headers ∧ s'.grid.height = s.grid.height ∧
      s' = { s with grid := s'.grid, bar := s'.bar }) ∧
    ∀ c, s.selection.anchor? = some c →
      if s.grid.contains c then s'.grid.raw? c = some s'.bar else s'.bar = s.bar := by
  have hwf : s.grid.Wf := h.sound.wf
  have hdrawn : s.selection.Drawn := by
    obtain ⟨o, as, rfl⟩ := h
    exact drawn_run o as
  have hact : s.act (.format w) = (s.selection.cells.foldl (wrap w) s,
      .count (s.grid.cells.filter fun c => s.selection.contains c).length) := by
    have hne : ¬ s.selection.cells.isEmpty = true := by
      rw [List.isEmpty_iff, hdrawn.cells_eq_nil_iff]
      exact hselected
    rw [act_format, format, if_neg hne, length_selected hwf]
    rfl
  have hformatted := formatted_foldl_wrap w (nodup_selected s.selection) s
  rw [hact]
  refine ⟨rfl, fun c => ?_, ⟨hformatted.headers, hformatted.height, ?_⟩, fun c hanchor => ?_⟩
  · rw [hformatted.raw?]
    refine congrArg (Option.map · _) (funext fun raw => ?_)
    simp only [Selection.mem_cells]
    split <;> rfl
  · obtain ⟨grid, bar, heq⟩ := exists_foldl_wrap_eq w s.selection.cells s
    simp only [heq]
  · split
    · next hin =>
      have hmem : c ∈ s.selection.cells := Selection.mem_cells.2 (hdrawn.contains_anchor hanchor)
      exact mirrors_foldl_wrap hanchor (hwf.contains_iff.1 hin) hmem c ((anchor?_foldl_wrap w _ s).trans hanchor)
    · next hout =>
      refine bar_foldl_wrap hanchor (Option.not_isSome_iff_eq_none.1 fun hsome => ?_)
      exact hout (hwf.contains_iff.2 hsome)

/-- Of four selected cells two are left after the erasure of a row. The other row has moved up to the anchor, so the bar
shows what has gone, until the cells are made bold. -/
theorem format_wraps_selected_moved :
    let s := (new { rows := 2, cols := 3 }).run [.setCell ⟨0, 0⟩ "x".toList, .setCell ⟨1, 0⟩ "y".toList,
      .select ⟨0, 0⟩, .extend ⟨1, 1⟩, .eraseRow 0]
    s.selection.cells.length = 4 ∧ s.bar = "x".toList ∧
      (s.act (.format .bold)).2 = .count 2 ∧ (s.act (.format .bold)).1.bar = "bold(y)".toList := by
  intro s
  have hselected : s.selection ≠ .idle := by decide +kernel
  have hreachable : s.Reachable := ⟨_, _, rfl⟩
  obtain ⟨hcount, hraw, -, hbar⟩ := format_wraps_selected hreachable hselected .bold
  have hnumber : (s.grid.cells.filter fun c => s.selection.contains c).length = 2 := by decide +kernel
  have hin : s.grid.contains ⟨0, 0⟩ = true := by decide +kernel
  have hold : s.grid.raw? ⟨0, 0⟩ = some "y".toList := by decide +kernel
  have hcontains : s.selection.contains ⟨0, 0⟩ = true := by decide +kernel
  have hshown := hbar ⟨0, 0⟩ (by decide +kernel)
  rw [if_pos hin, hraw, hold, Option.map_some, if_pos hcontains] at hshown
  refine ⟨by decide +kernel, by decide +kernel, by rw [hcount, hnumber], ?_⟩
  rw [← Option.some.inj hshown]
  rfl

end Sheet

end Spreadsheet
