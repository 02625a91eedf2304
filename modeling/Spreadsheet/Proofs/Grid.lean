import Spreadsheet.Erasure
import Spreadsheet.Proofs.Area
import Spreadsheet.Proofs.Label

/-!
# What grids keep

`Wf` holds of an empty grid and is kept by every operation; under it a cell that lies in the grid is
the same as a cell that has a raw text (`Wf.contains_iff`). Each operation has one equation for the raw
texts afterwards: `raw?_set_self` and `raw?_set_of_ne`, `raw?_erase`, `raw?_addRow`, `raw?_addColumn`. Since a
grid is given by its raw texts (`ext_raw?`), these say which operations commute. An `Edit` is any of the
operations, and `edits` a history of them.
-/

namespace Spreadsheet

namespace Grid

variable {g : Grid} {a b : Cell} {t : Text}

theorem contains_eq_true : g.contains a = true ↔ a.row < g.height ∧ a.col < g.width := by
  simp [contains]

theorem raw?_eq_some_iff : g.raw? a = some t ↔ ∃ row, g.rows[a.row]? = some row ∧ row[a.col]? = some t :=
  Option.bind_eq_some_iff

/-! ### Well-formed grids -/

/-- Every label of the grid is a word of capital letters. -/
def Lettered (g : Grid) : Prop := ∀ label ∈ g.headers, Label.IsWord label

theorem wf_empty (rows cols : Nat) : (empty rows cols).Wf where
  full row hrow := by
    rw [List.eq_of_mem_replicate hrow]
    simp [empty]
  distinct := List.nodup_range.map Label.ofIndex_injective

theorem lettered_empty (rows cols : Nat) : (empty rows cols).Lettered := by
  intro label hlabel
  obtain ⟨n, -, rfl⟩ := List.mem_map.1 hlabel
  exact Label.isWord_ofIndex n

namespace Wf

/-- A cell that lies in the grid is a cell that has a raw text. -/
theorem contains_iff (h : g.Wf) : g.contains a = true ↔ (g.raw? a).isSome := by
  rw [contains_eq_true, Option.isSome_iff_exists]
  simp only [raw?_eq_some_iff]
  constructor
  · rintro ⟨hr, hc⟩
    have hlen : a.col < g.rows[a.row].length := by
      rw [h.full _ (List.getElem_mem hr)]; exact hc
    exact ⟨_, _, List.getElem?_eq_getElem hr, List.getElem?_eq_getElem hlen⟩
  · rintro ⟨t, row, hrow, ht⟩
    obtain ⟨hr, rfl⟩ := List.getElem?_eq_some_iff.1 hrow
    obtain ⟨hc, -⟩ := List.getElem?_eq_some_iff.1 ht
    rw [h.full _ (List.getElem_mem hr)] at hc
    exact ⟨hr, hc⟩

theorem raw?_isSome (h : g.Wf) (ha : g.contains a = true) : ∃ t, g.raw? a = some t :=
  Option.isSome_iff_exists.1 (h.contains_iff.1 ha)

theorem contains_of_raw? (h : g.Wf) (ha : g.raw? a = some t) : g.contains a = true :=
  h.contains_iff.2 (by simp [ha])

theorem set (h : g.Wf) (a : Cell) (t : Text) : (g.set a t).Wf where
  full row hrow := by
    obtain ⟨i, hi⟩ := List.mem_iff_getElem?.1 hrow
    rw [Grid.set, List.getElem?_modify] at hi
    obtain ⟨old, hold, rfl⟩ := Option.map_eq_some_iff.1 hi
    have hlen := h.full old (List.mem_of_getElem? hold)
    split
    · rw [List.length_set]; exact hlen
    · exact hlen
  distinct := h.distinct

theorem addRow (h : g.Wf) : g.addRow.Wf where
  full row hrow := by
    rcases List.mem_append.1 hrow with hrow | hrow
    · exact h.full row hrow
    · rw [List.mem_singleton.1 hrow, List.length_replicate]; rfl
  distinct := h.distinct

theorem addColumn (h : g.Wf) : g.addColumn.Wf where
  full row hrow := by
    obtain ⟨old, hold, rfl⟩ := List.mem_map.1 hrow
    simp [Grid.addColumn, h.full old hold]
  distinct := by
    refine List.nodup_append.2 ⟨h.distinct, List.nodup_singleton _, fun label hlabel new hnew => ?_⟩
    rintro rfl
    rw [List.mem_singleton.1 hnew] at hlabel
    exact Label.free_not_mem g.headers hlabel

theorem erase (h : g.Wf) (e : Erasure) : (g.erase e).Wf := by
  cases e with
  | row i => exact ⟨fun row hrow => h.full row (List.mem_of_mem_eraseIdx hrow), h.distinct⟩
  | column i =>
    refine ⟨fun row hrow => ?_, h.distinct.sublist (List.eraseIdx_sublist _ _)⟩
    obtain ⟨old, hold, rfl⟩ := List.mem_map.1 hrow
    simp [Grid.erase, eraseColumn, List.length_eraseIdx, h.full old hold]

end Wf

namespace Lettered

theorem addColumn (h : g.Lettered) : g.addColumn.Lettered := by
  intro label hlabel
  rcases List.mem_append.1 hlabel with hlabel | hlabel
  · exact h label hlabel
  · rw [List.mem_singleton.1 hlabel]; exact Label.isWord_free _

theorem erase (h : g.Lettered) (e : Erasure) : (g.erase e).Lettered := by
  cases e with
  | row i => exact h
  | column i => exact fun label hlabel => h label (List.mem_of_mem_eraseIdx hlabel)

end Lettered

/-! ### The cells of a grid -/

theorem mem_cells : a ∈ g.cells ↔ g.contains a = true := by
  rw [contains_eq_true, cells]
  simp only [List.mem_flatMap, List.mem_map, List.mem_range]
  constructor
  · rintro ⟨r, hr, c, hc, rfl⟩
    exact ⟨hr, hc⟩
  · exact fun ⟨hr, hc⟩ => ⟨a.row, hr, a.col, hc, rfl⟩

theorem nodup_cells (g : Grid) : g.cells.Nodup :=
  (Cell.ordered_of_rows List.pairwise_lt_range List.pairwise_lt_range).imp Cell.Before.ne

theorem getElem_row {r k : Nat} (hr : r < g.rows.length) (hk : k < g.rows[r].length) :
    g.rows[r][k] = g.raw ⟨r, k⟩ := by
  simp [raw, raw?, List.getElem?_eq_getElem hr, List.getElem?_eq_getElem hk]

/-! ### Raw texts after an operation -/

theorem raw?_set_of_ne (h : b ≠ a) : (g.set a t).raw? b = g.raw? b := by
  simp only [raw?, set, List.getElem?_modify]
  by_cases hr : a.row = b.row
  · have hc : a.col ≠ b.col := fun hc => h (by cases a; cases b; simp_all)
    cases hrow : g.rows[b.row]? with
    | none => simp
    | some row => simp [hr, List.getElem?_set_ne hc]
  · simp [hr]

theorem raw_set_of_ne (h : b ≠ a) : (g.set a t).raw b = g.raw b := by rw [raw, raw?_set_of_ne h, raw]

theorem raw?_set_self (h : (g.raw? a).isSome) : (g.set a t).raw? a = some t := by
  obtain ⟨old, hold⟩ := Option.isSome_iff_exists.1 h
  obtain ⟨row, hrow, hcell⟩ := raw?_eq_some_iff.1 hold
  obtain ⟨hc, -⟩ := List.getElem?_eq_some_iff.1 hcell
  simp [raw?, set, hrow, List.getElem?_set_self hc]

@[simp] theorem height_set : (g.set a t).height = g.height := List.length_modify _ _ _

@[simp] theorem width_set : (g.set a t).width = g.width := rfl

@[simp] theorem contains_set : (g.set a t).contains b = g.contains b := by
  rw [contains, height_set, width_set]; rfl

/-- The cell at some place is the one that has moved there. -/
theorem raw?_erase (g : Grid) (e : Erasure) (c : Cell) : (g.erase e).raw? c = g.raw? (e.source c) := by
  cases e with
  | row i =>
    simp only [raw?, erase, eraseRow, Erasure.source, Erasure.unshift, List.getElem?_eraseIdx]
    split <;> rfl
  | column i =>
    simp only [raw?, erase, eraseColumn, Erasure.source, Erasure.unshift, List.getElem?_map]
    cases g.rows[c.row]? with
    | none => rfl
    | some row =>
      simp only [Option.map_some, Option.bind_some, List.getElem?_eraseIdx]
      split <;> rfl

theorem Wf.contains_erase (h : g.Wf) (e : Erasure) (c : Cell) :
    (g.erase e).contains c = true ↔ g.contains (e.source c) = true := by
  rw [(h.erase e).contains_iff, h.contains_iff, raw?_erase]

/-- A grid is its labels, its height and its raw texts. -/
theorem ext_raw? {g' : Grid} (hheaders : g.headers = g'.headers) (hheight : g.height = g'.height)
    (hraw : ∀ c, g.raw? c = g'.raw? c) : g = g' := by
  have hrows : g.rows = g'.rows := by
    refine List.ext_getElem hheight fun r hr hr' => List.ext_getElem? fun k => ?_
    simpa [raw?, List.getElem?_eq_getElem hr, List.getElem?_eq_getElem hr'] using hraw ⟨r, k⟩
  obtain ⟨headers, rows⟩ := g
  obtain rfl : headers = g'.headers := hheaders
  obtain rfl : rows = g'.rows := hrows
  rfl

theorem set_comm {u : Text} (ha : (g.raw? a).isSome) (hb : (g.raw? b).isSome) (hne : a ≠ b) :
    (g.set a t).set b u = (g.set b u).set a t := by
  refine ext_raw? rfl (by simp) fun c => ?_
  by_cases hca : c = a
  · subst hca
    rw [raw?_set_of_ne hne, raw?_set_self ha, raw?_set_self (by rwa [isSome_raw?_set])]
  · rw [raw?_set_of_ne (b := c) hca]
    by_cases hcb : c = b
    · subst hcb
      rw [raw?_set_self hb, raw?_set_self (by rwa [isSome_raw?_set])]
    · rw [raw?_set_of_ne hcb, raw?_set_of_ne hcb, raw?_set_of_ne hca]

theorem height_erase_set (g : Grid) (a : Cell) (t : Text) (e : Erasure) :
    ((g.set a t).erase e).height = (g.erase e).height := by
  cases e <;> simp [erase, eraseRow, eraseColumn, height, set, List.length_eraseIdx]

/-- A text that is set before an erasure moves with its cell. -/
theorem erase_set {e : Erasure} (ha : (g.raw? a).isSome) (hmoved : e.moved? a = some b) :
    (g.set a t).erase e = (g.erase e).set b t := by
  have hsource : e.source b = a := (Erasure.moved?_eq_some_iff.1 hmoved).symm
  refine ext_raw? (by cases e <;> rfl) (by rw [height_erase_set, height_set]) fun c => ?_
  rw [raw?_erase]
  by_cases hc : c = b
  · subst hc
    rw [hsource, raw?_set_self ha, raw?_set_self (by rwa [raw?_erase, hsource])]
  · have hne : e.source c ≠ a := by
      rw [← hsource]
      exact fun h => hc (Erasure.source_inj.1 h)
    rw [raw?_set_of_ne hne, raw?_set_of_ne hc, raw?_erase]

/-- A text that is set before an erasure goes with its cell. -/
theorem erase_set_of_lost {e : Erasure} (hlost : e.moved? a = none) : (g.set a t).erase e = g.erase e := by
  refine ext_raw? (by cases e <;> rfl) (height_erase_set g a t e) fun c => ?_
  have hne : e.source c ≠ a := by
    rintro rfl
    rw [e.moved?_source] at hlost
    cases hlost
  rw [raw?_erase, raw?_erase, raw?_set_of_ne hne]

theorem raw?_addRow (h : g.raw? a = some t) : g.addRow.raw? a = some t := by
  obtain ⟨row, hrow, hcell⟩ := raw?_eq_some_iff.1 h
  obtain ⟨hr, -⟩ := List.getElem?_eq_some_iff.1 hrow
  exact raw?_eq_some_iff.2 ⟨row, by rw [addRow, List.getElem?_append_left hr]; exact hrow, hcell⟩

theorem raw?_addColumn (h : g.raw? a = some t) : g.addColumn.raw? a = some t := by
  obtain ⟨row, hrow, hcell⟩ := raw?_eq_some_iff.1 h
  obtain ⟨hc, -⟩ := List.getElem?_eq_some_iff.1 hcell
  refine raw?_eq_some_iff.2 ⟨row ++ [[]], ?_, by rw [List.getElem?_append_left hc]; exact hcell⟩
  simp [addColumn, hrow]

theorem raw_addRow (g : Grid) (c : Cell) : g.addRow.raw c = g.raw c := by
  simp only [raw, raw?, addRow]
  rcases Nat.lt_trichotomy c.row g.rows.length with hlt | heq | hgt
  · rw [List.getElem?_append_left hlt]
  · -- the cells of the new row are empty, as they were before outside the grid
    rw [heq, List.getElem?_concat_length, List.getElem?_eq_none (Nat.le_refl _)]
    simp only [Option.bind_some, Option.bind_none, Option.getD_none, List.getElem?_replicate]
    split <;> rfl
  · rw [List.getElem?_eq_none (by simp; omega), List.getElem?_eq_none (by omega)]

theorem raw_addColumn (g : Grid) (c : Cell) : g.addColumn.raw c = g.raw c := by
  simp only [raw, raw?, addColumn, List.getElem?_map]
  cases g.rows[c.row]? with
  | none => rfl
  | some row =>
    simp only [Option.map_some, Option.bind_some]
    rcases Nat.lt_trichotomy c.col row.length with hlt | heq | hgt
    · rw [List.getElem?_append_left hlt]
    · rw [heq, List.getElem?_concat_length, List.getElem?_eq_none (Nat.le_refl _)]
      rfl
    · rw [List.getElem?_eq_none (by simp; omega), List.getElem?_eq_none (by omega)]

/-! ### Histories -/

/-- What can be done to a grid. -/
inductive Edit
  | set (c : Cell) (t : Text)
  | addRow
  | eraseRow (i : Nat)
  | addColumn
  | eraseColumn (i : Nat)

def edit (g : Grid) : Edit → Grid
  | .set c t => g.set c t
  | .addRow => g.addRow
  | .eraseRow i => g.eraseRow i
  | .addColumn => g.addColumn
  | .eraseColumn i => g.eraseColumn i

def edits (g : Grid) (es : List Edit) : Grid := es.foldl edit g

theorem Wf.edit (h : g.Wf) (e : Edit) : (g.edit e).Wf := by
  cases e with
  | set c t => exact h.set c t
  | addRow => exact h.addRow
  | eraseRow i => exact h.erase (.row i)
  | addColumn => exact h.addColumn
  | eraseColumn i => exact h.erase (.column i)

theorem Lettered.edit (h : g.Lettered) (e : Edit) : (g.edit e).Lettered := by
  cases e with
  | set | addRow | eraseRow => exact h
  | addColumn => exact h.addColumn
  | eraseColumn i => exact h.erase (.column i)

theorem Wf.edits (h : g.Wf) (es : List Edit) : (g.edits es).Wf := by
  induction es generalizing g with
  | nil => exact h
  | cons e es ih => exact ih (h.edit e)

theorem Lettered.edits (h : g.Lettered) (es : List Edit) : (g.edits es).Lettered := by
  induction es generalizing g with
  | nil => exact h
  | cons e es ih => exact ih (h.edit e)

end Grid

end Spreadsheet
