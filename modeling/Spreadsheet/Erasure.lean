import Spreadsheet.Grid

/-!
# Erasing rows and columns

An erasure takes one row or one column out. The cells before it stay, its own cells are lost, and the
cells behind it move by one. `moved?_eq_some_iff` says that `source` undoes the move.
-/

namespace Spreadsheet

/-- A row or a column that is taken out. -/
inductive Erasure
  | row (i : Nat)
  | column (i : Nat)
  deriving DecidableEq, Repr

namespace Erasure

/-- The index that `n` moves to when index `i` is taken out. -/
def shift? (i n : Nat) : Option Nat :=
  if n < i then some n else if n = i then none else some (n - 1)

/-- The index that moves to `n` when index `i` is taken out. -/
def unshift (i n : Nat) : Nat := if n < i then n else n + 1

/-- Where a cell is afterwards, unless it is lost. -/
def moved? : Erasure → Cell → Option Cell
  | row i, c => (shift? i c.row).map fun r => { c with row := r }
  | column i, c => (shift? i c.col).map fun k => { c with col := k }

/-- Where a cell was before. -/
def source : Erasure → Cell → Cell
  | row i, c => { c with row := unshift i c.row }
  | column i, c => { c with col := unshift i c.col }

theorem shift?_eq_some_iff {i n m : Nat} : shift? i n = some m ↔ n = unshift i m := by
  unfold shift? unshift
  split
  · simp only [Option.some.injEq]; split <;> omega
  · split
    · simp; split <;> omega
    · simp only [Option.some.injEq]; split <;> omega

theorem moved?_eq_some_iff {e : Erasure} {c d : Cell} : e.moved? c = some d ↔ c = e.source d := by
  cases e <;> cases c <;> cases d <;>
    simp only [moved?, source, Option.map_eq_some_iff, shift?_eq_some_iff, Cell.mk.injEq]
  · exact ⟨fun ⟨_, h, hr, hc⟩ => ⟨hr ▸ h, hc⟩, fun ⟨h, hc⟩ => ⟨_, h, rfl, hc⟩⟩
  · exact ⟨fun ⟨_, h, hr, hc⟩ => ⟨hr, hc ▸ h⟩, fun ⟨hr, h⟩ => ⟨_, h, hr, rfl⟩⟩

theorem moved?_source (e : Erasure) (c : Cell) : e.moved? (e.source c) = some c :=
  moved?_eq_some_iff.2 rfl

theorem source_inj {e : Erasure} {c d : Cell} : e.source c = e.source d ↔ c = d := by
  refine ⟨fun h => Option.some.inj ?_, congrArg _⟩
  rw [← e.moved?_source c, h, e.moved?_source]

end Erasure

def Grid.erase (g : Grid) : Erasure → Grid
  | .row i => g.eraseRow i
  | .column i => g.eraseColumn i

end Spreadsheet
