import Spreadsheet.Proofs.Formula.Dependence
import Spreadsheet.Proofs.Formula.Substitution

/-!
# References follow the labels of their columns

Taking a column out moves the cells behind it, and the labels move along. So a token names the same cell as before
at its new place (`locate?_eraseColumn`), and an area that does not touch the column stays an area of the same cells
(`spanning_place`). What a formula refers to is therefore what it referred to, and its script is the same unless it
asks for the number of its own column. The erasure is a relocation of all cells that lead neither to the column nor
to such a formula behind it (`relocation_eraseColumn`).
-/

namespace Spreadsheet

/-! ### Cells beside the column -/

namespace Erasure

/-- Where a cell is after an erasure; a lost cell stays where it was. -/
def place (e : Erasure) (c : Cell) : Cell := (e.moved? c).getD c

variable {i : Nat} {a b c : Cell}

theorem place_column (i : Nat) (c : Cell) :
    (column i).place c = { c with col := if i < c.col then c.col - 1 else c.col } := by
  rcases Nat.lt_trichotomy c.col i with hlt | rfl | hgt
  · simp [place, moved?, shift?, hlt, Nat.not_lt_of_gt hlt]
  · simp [place, moved?, shift?]
  · simp [place, moved?, shift?, hgt, Nat.not_lt_of_gt hgt, Nat.ne_of_gt hgt]

theorem moved?_column (h : c.col ≠ i) : (column i).moved? c = some ((column i).place c) := by
  rw [place_column, moved?, shift?]
  rcases Nat.lt_or_gt_of_ne h with hlt | hgt
  · simp [hlt, Nat.not_lt_of_gt hlt]
  · simp [hgt, h, Nat.not_lt_of_gt hgt]

theorem source_place (h : c.col ≠ i) : (column i).source ((column i).place c) = c :=
  (moved?_eq_some_iff.1 (moved?_column h)).symm

theorem col_ne_of_moved? (h : (column i).moved? a = some b) : a.col ≠ i := by
  rintro rfl
  simp [moved?, shift?] at h

/-- An area beside the column moves as a whole. -/
theorem spanning_place (h : ∀ c ∈ (Area.spanning a b).cells, c.col ≠ i) :
    (Area.spanning ((column i).place a) ((column i).place b)).cells =
      (Area.spanning a b).cells.map (column i).place := by
  have hside : max a.col b.col < i ∨ i < min a.col b.col := by
    have hbetween : ¬ (min a.col b.col ≤ i ∧ i ≤ max a.col b.col) := by
      intro hi
      refine h ⟨a.row, i⟩ (Area.mem_cells.2 ?_) rfl
      simp [Area.contains, Area.spanning]
      omega
    omega
  simp only [Area.cells, Area.spanning, place_column, List.map_flatMap, List.map_map]
  rcases hside with hlt | hgt
  · have hcol : ∀ k, k ≤ max a.col b.col → ¬ i < k := fun k hk => by omega
    rw [if_neg (hcol a.col (Nat.le_max_left ..)), if_neg (hcol b.col (Nat.le_max_right ..))]
    refine List.flatMap_congr fun r _ => List.map_congr_left fun k hk => ?_
    rw [List.mem_range'_1] at hk
    rw [Function.comp, place_column, if_neg (hcol k (by omega))]
  · have hcol : ∀ k, min a.col b.col ≤ k → i < k := fun k hk => by omega
    rw [if_pos (hcol a.col (Nat.min_le_left ..)), if_pos (hcol b.col (Nat.min_le_right ..))]
    refine List.flatMap_congr fun r _ => ?_
    have hleft : min (a.col - 1) (b.col - 1) = min a.col b.col - 1 := by omega
    have hright : max (a.col - 1) (b.col - 1) + 1 - (min a.col b.col - 1) =
        max a.col b.col + 1 - min a.col b.col := by omega
    rw [hleft, hright, ← List.map_sub_range' (by omega), List.map_map]
    refine List.map_congr_left fun k hk => ?_
    rw [List.mem_range'_1] at hk
    rw [Function.comp, Function.comp, place_column, if_pos (hcol k hk.1)]

end Erasure

/-! ### Tokens -/

theorem idxOf?_eraseIdx {labels : List Text} {label : Text} {i k : Nat} (h : labels.idxOf? label = some k)
    (hne : k ≠ i) : (labels.eraseIdx i).idxOf? label = some (if i < k then k - 1 else k) := by
  induction labels generalizing i k with
  | nil => simp at h
  | cons first labels ih =>
    rw [List.idxOf?_cons] at h
    split at h
    · next hfirst =>
      obtain rfl := Option.some.inj h
      obtain ⟨i, rfl⟩ := Nat.exists_eq_succ_of_ne_zero hne.symm
      simp [List.eraseIdx_cons_succ, List.idxOf?_cons, hfirst]
    · next hfirst =>
      obtain ⟨k, hk, rfl⟩ := Option.map_eq_some_iff.1 h
      cases i with
      | zero => simpa using hk
      | succ i =>
        have hk' := ih hk (i := i) (by omega)
        rw [List.eraseIdx_cons_succ, List.idxOf?_cons, if_neg hfirst, hk', Option.map_some]
        congr 1
        split <;> split <;> omega

/-- A token names the same cell when a column beside it is taken out. -/
theorem Grid.locate?_eraseColumn {g : Grid} {i : Nat} {token : Text} {c : Cell} (h : g.locate? token = some c)
    (hne : c.col ≠ i) : (g.erase (.column i)).locate? token = some ((Erasure.column i).place c) := by
  obtain ⟨label, hsplit, hcol, hcontains⟩ := Formula.Setting.locate?_eq_some_iff.1 h
  rw [Erasure.place_column]
  refine Formula.Setting.locate?_eq_some_iff.2 ⟨label, hsplit, idxOf?_eraseIdx hcol hne, ?_⟩
  rw [Grid.contains_eq_true] at hcontains ⊢
  simp only [Grid.height, Grid.width, Grid.erase, Grid.eraseColumn, List.length_map, List.length_eraseIdx] at hcontains ⊢
  refine ⟨hcontains.1, ?_⟩
  split <;> split <;> omega

namespace Formula

open Script (Value)
open Relation (ReflTransGen)

namespace Setting

variable {s : Setting} {i : Nat}

theorem content_eraseColumn {c : Cell} (h : c.col ≠ i) :
    ({ s with grid := s.grid.erase (.column i) }).content ((Erasure.column i).place c) = s.content c := by
  simp only [content, Grid.raw, Grid.raw?_erase, Erasure.source_place h]

/-- A formula moves along if it does not call its column, or if the column is not moved. -/
theorem sameScripts_place {c : Cell} {body : Text} (h : i < c.col → ¬ CallsColumn body) :
    s.SameScripts (some c) (some ((Erasure.column i).place c)) body := by
  by_cases hcol : i < c.col
  · exact sameScripts_of_not_calls (h hcol) (by rw [Erasure.place_column])
  · rw [Erasure.place_column, if_neg hcol]
    exact sameScripts_refl (some c) body

/-- The cells of `P` lie beside the column, all that they refer to has `P`, and none of their formulas behind the
column calls its column. -/
theorem relocation_eraseColumn {P : Cell → Prop} (hne : ∀ c, P c → c.col ≠ i) (hfeeds : ∀ c d, P c → s.Feeds d c → P d)
    (hcalls : ∀ c, P c → i < c.col → ∀ body, body? (s.content c) = some body → ¬ CallsColumn body) :
    Relocation s { s with grid := s.grid.erase (.column i) } (Erasure.column i).place P where
  generation := rfl
  language := rfl
  injective c d hc hd h := by rw [← Erasure.source_place (hne c hc), h, Erasure.source_place (hne d hd)]
  content c hc := content_eraseColumn (hne c hc)
  locate token c hc h := Grid.locate?_eraseColumn h (hne c hc)
  spanning a b h := Erasure.spanning_place fun c hc => hne c (h c hc)
  feeds := hfeeds
  scripts c body hc hbody := sameScripts_place fun hcol => hcalls c hc hcol body hbody

/-- References follow the labels of their columns. A cell beside the column is evaluated without an error, without a
look at any cell of the column and without any formula behind the column that calls its column number. When the column
is taken out, the cell has the same content at its new place and comes to the same outcome. -/
theorem evaluateCell_eraseColumn {c c' : Cell} (hmoved : (Erasure.column i).moved? c = some c')
    (hok : (s.evaluateCell c).isError = false) (hunread : ∀ d, d.col = i → s.Unread d (some c) (s.grid.raw c))
    (hcalls : ∀ d, d = c ∨ ¬ s.Unread d (some c) (s.grid.raw c) → i < d.col →
      ∀ body, body? (s.content d) = some body → ¬ CallsColumn body) :
    (s.grid.erase (.column i)).raw c' = s.grid.raw c ∧
      ({ s with grid := s.grid.erase (.column i) }).evaluateCell c' = s.evaluateCell c := by
  have hne := Erasure.col_ne_of_moved? hmoved
  obtain rfl : (Erasure.column i).place c = c' := by
    rw [Erasure.moved?_column hne] at hmoved
    exact Option.some.inj hmoved
  have hraw : (s.grid.erase (.column i)).raw ((Erasure.column i).place c) = s.grid.raw c := by
    rw [Grid.raw, Grid.raw?_erase, Erasure.source_place hne, Grid.raw]
  refine ⟨hraw, ?_⟩
  change Setting.evaluate _ _ ((s.grid.erase (.column i)).raw _) = s.evaluate c (s.grid.raw c)
  rw [hraw]
  cases hbody : body? (s.grid.raw c) with
  | none => rw [evaluate_eq, evaluate_eq, evaluateWith, evaluateWith, hbody]
  | some body =>
    have hread : ∀ d, ReflTransGen s.Feeds d c → d = c ∨ ¬ s.Unread d (some c) (s.grid.raw c) := by
      intro d hd
      obtain rfl | ⟨e, hde, he⟩ := hd.cases_tail
      · exact .inl rfl
      · obtain ⟨body', hbody', he⟩ := he
        rw [content_of_formula (by rw [hbody]; rfl)] at hbody'
        exact .inr fun hun => avoids_of_unread (c := some c) hok hun hbody' he hde
    have hrelocation := relocation_eraseColumn (s := s) (i := i) (P := fun d => ReflTransGen s.Feeds d c)
      (fun d hd hcol => ?_)
      (fun d e hd he => .head he hd) fun d hd => hcalls d (hread d hd)
    · refine hrelocation.evaluateAt (c := some c) (fun d hd => ?_) (fun body' hbody' d hd => ?_)
        (fun body' hbody' => sameScripts_place fun hcol => ?_) hok
      · obtain rfl := Option.some.inj hd
        exact .refl
      · exact .single (references_of_raw hbody' hd)
      · refine hcalls c (.inl rfl) hcol body' ?_
        rw [content_of_formula (by rw [hbody]; rfl), hbody']
    · obtain rfl | hun := hread d hd
      · exact hne hcol
      · exact hun (hunread d hcol)

/-- The formula in the third column refers to the second one, and the first one is taken out. -/
theorem evaluateCell_eraseColumn_first :
    let s : Setting := { grid := ((Grid.empty 1 3).set ⟨0, 1⟩ "x".toList).set ⟨0, 2⟩ "=B1+B1".toList }
    (s.grid.erase (.column 0)).raw ⟨0, 1⟩ = "=B1+B1".toList ∧
      ({ s with grid := s.grid.erase (.column 0) }).evaluateCell ⟨0, 1⟩ = s.evaluateCell ⟨0, 2⟩ := by
  intro s
  have hreferences : s.references "B1+B1".toList = [⟨0, 1⟩, ⟨0, 1⟩] := by decide +kernel
  have htext : body? (s.content ⟨0, 1⟩) = none := by decide +kernel
  have hunread : ∀ d, d ≠ ⟨0, 1⟩ → s.Unread d (some ⟨0, 2⟩) "=B1+B1".toList := by
    intro d hd
    refine unread_of_unreached fun body hbody e he hde => ?_
    obtain rfl : "B1+B1".toList = body := Option.some.inj hbody
    rw [hreferences] at he
    obtain rfl : e = ⟨0, 1⟩ := by simpa using he
    obtain rfl | ⟨f, -, body, hbody, -⟩ := hde.cases_tail
    · exact hd rfl
    · rw [htext] at hbody
      cases hbody
  refine evaluateCell_eraseColumn (s := s) (c := ⟨0, 2⟩) rfl (by decide +kernel) (fun d hd => hunread d ?_)
    fun d hread _ body hbody hcalls => ?_
  · rintro rfl
    cases hd
  · obtain rfl : d = ⟨0, 2⟩ := by
      refine hread.resolve_right fun hun => hun (hunread d ?_)
      rintro rfl
      rw [htext] at hbody
      cases hbody
    have hmem : 'C' ∈ "B1+B1".toList := by
      have hformula : body? (s.content ⟨0, 2⟩) = some "B1+B1".toList := by decide +kernel
      obtain rfl := Option.some.inj (hformula.symm.trans hbody)
      exact hcalls.mem
    exact absurd hmem (by decide)

end Setting

end Formula

end Spreadsheet
