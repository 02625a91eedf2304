import Mathlib.Data.List.Nodup
import Spreadsheet.Area

/-!
# The cells of an area

An area lists the cells that lie in it (`mem_cells`), row by row and each once (`cells_ordered`), and no other list
does (`eq_cells_of_ordered`). An area that two cells span holds both of them, and the other two `corners` span it too.
-/

namespace Spreadsheet

/-- The first cell comes before the second when cells are read row by row. -/
def Cell.Before (a b : Cell) : Prop := a.row < b.row ∨ a.row = b.row ∧ a.col < b.col

theorem Cell.Before.ne {a b : Cell} (h : a.Before b) : a ≠ b := by
  rintro rfl
  rcases h with h | ⟨-, h⟩ <;> exact Nat.lt_irrefl _ h

theorem Cell.Before.asymm {a b : Cell} (h : a.Before b) : ¬ b.Before a := by
  simp only [Before] at h ⊢
  omega

/-- Cells are listed row by row if their rows are, and in each row their columns. -/
theorem Cell.ordered_of_rows {rows cols : List Nat} (hrows : rows.Pairwise (· < ·)) (hcols : cols.Pairwise (· < ·)) :
    (rows.flatMap fun r => cols.map fun k => (⟨r, k⟩ : Cell)).Pairwise Before := by
  refine List.pairwise_flatMap.2 ⟨fun r _ => List.pairwise_map.2 (hcols.imp fun h => .inr ⟨rfl, h⟩), ?_⟩
  refine hrows.imp fun hlt c hc d hd => ?_
  obtain ⟨k, -, rfl⟩ := List.mem_map.1 hc
  obtain ⟨k', -, rfl⟩ := List.mem_map.1 hd
  exact .inl hlt

namespace Area

theorem mem_cells {s : Area} {c : Cell} : c ∈ s.cells ↔ s.contains c = true := by
  simp only [Area.cells, Area.contains, List.mem_flatMap, List.mem_map, List.mem_range'_1, Bool.and_eq_true,
    decide_eq_true_eq]
  constructor
  · rintro ⟨r, hr, k, hk, rfl⟩
    dsimp only
    omega
  · intro h
    exact ⟨c.row, by omega, c.col, by omega, rfl⟩

theorem cells_ordered (s : Area) : s.cells.Pairwise Cell.Before :=
  Cell.ordered_of_rows List.pairwise_lt_range' List.pairwise_lt_range'

theorem nodup_cells (s : Area) : s.cells.Nodup := s.cells_ordered.imp Cell.Before.ne

/-- The cells of an area can be listed row by row in one way only. -/
theorem eq_cells_of_ordered {s : Area} {cs : List Cell} (hordered : cs.Pairwise Cell.Before)
    (hmem : ∀ c, c ∈ cs ↔ s.contains c = true) : cs = s.cells := by
  have hnodup : cs.Nodup := hordered.imp Cell.Before.ne
  have hperm : cs.Perm s.cells :=
    (List.perm_ext_iff_of_nodup hnodup s.nodup_cells).2 fun c => by rw [hmem, mem_cells]
  exact hperm.eq_of_pairwise (fun a b _ _ hab hba => absurd hba hab.asymm) hordered s.cells_ordered

/-- The ways to write an area by two opposite corners, given by one of them. -/
def corners (a b : Cell) : List (Cell × Cell) :=
  [(a, b), (b, a), (⟨a.row, b.col⟩, ⟨b.row, a.col⟩), (⟨b.row, a.col⟩, ⟨a.row, b.col⟩)]

theorem spanning_of_corners {a b : Cell} {p : Cell × Cell} (h : p ∈ corners a b) :
    spanning p.1 p.2 = spanning a b := by
  simp only [corners, List.mem_cons, List.not_mem_nil, or_false] at h
  rcases h with rfl | rfl | rfl | rfl
  · rfl
  · exact spanning_comm b a
  · simp [spanning, Nat.min_comm, Nat.max_comm]
  · simp [spanning, Nat.min_comm, Nat.max_comm]

theorem mem_spanning_left (a b : Cell) : a ∈ (Area.spanning a b).cells := by
  simp only [mem_cells, Area.contains, Area.spanning, Bool.and_eq_true, decide_eq_true_eq]
  omega

theorem mem_spanning_right (a b : Cell) : b ∈ (Area.spanning a b).cells := by
  rw [Area.spanning_comm]
  exact mem_spanning_left b a

end Area

end Spreadsheet
