import Spreadsheet.Proofs.Formula.Relocation

/-!
# Ranges by their corners

`Visits value cs t r t'`: from the trail `t` the cells `cs` are looked up one after the other, up to the first that
fails, with the outcome `r` and the trail `t'`. A range looks up the cells of its area in this way row by row
(`substituteSpan_range_iff`), so which corners it is written by makes no difference to the text that it becomes, to the
error that it fails with, or to what is remembered (`Recornered.substitute`).
-/

namespace Spreadsheet.Formula

open Script (Value)

namespace Walk

variable {α : Type} {value : Cell → Walk α} {cs : List Cell} {t t' : Trail} {r : Except Error (List α)}

/-- Cells are looked up one after the other, up to the first that fails. -/
inductive Visits (value : Cell → Walk α) : List Cell → Trail → Except Error (List α) → Trail → Prop
  | done (t : Trail) : Visits value [] t (.ok []) t
  | failed {c : Cell} {cs : List Cell} {t t' : Trail} {e : Error} (h : (value c).result t = (.error e, t')) :
      Visits value (c :: cs) t (.error e) t'
  | next {c : Cell} {cs : List Cell} {t t' t'' : Trail} {v : α} {r : Except Error (List α)}
      (h : (value c).result t = (.ok v, t')) (hrest : Visits value cs t' r t'') :
      Visits value (c :: cs) t (r.map (v :: ·)) t''

theorem result_map {β : Type} (w : Walk α) (f : α → β) (t : Trail) :
    (w >>= fun a => pure (f a)).result t = ((w.result t).1.map f, (w.result t).2) := by
  rw [result_bind]
  rcases w.result t with ⟨e | a, t'⟩ <;> rfl

theorem result_mapM_iff : (cs.mapM value).result t = (r, t') ↔ Visits value cs t r t' := by
  induction cs generalizing t r t' with
  | nil =>
    constructor
    · rintro ⟨⟩
      exact .done t
    · rintro ⟨⟩
      rfl
  | cons c cs ih =>
    rw [List.mapM_cons, result_bind]
    rcases hc : (value c).result t with ⟨e | v, t₁⟩
    · constructor
      · rintro ⟨⟩
        exact .failed hc
      · intro h
        cases h with
        | failed h =>
          obtain ⟨⟩ := hc.symm.trans h
          rfl
        | next h => cases hc.symm.trans h
    · dsimp only
      rw [result_map]
      constructor
      · rintro ⟨⟩
        exact .next hc (ih.1 rfl)
      · intro h
        cases h with
        | failed h => cases hc.symm.trans h
        | next h hrest =>
          obtain ⟨⟩ := hc.symm.trans h
          rw [ih.2 hrest]

end Walk

namespace Setting

variable {s : Setting} {value : Cell → Walk Value} {a b : Cell} {first gap last body body' : Text}

theorem substituteSpan_range (hfirst : s.grid.locate? first = some a) (hlast : s.grid.locate? last = some b) :
    s.substituteSpan value (.range first gap last) =
      (Area.spanning a b).cells.mapM value >>= fun vs => pure (Value.array vs).literal := by
  simp only [substituteSpan, locate, hfirst, hlast, pure_bind]

/-- A range looks up its cells row by row, and becomes the literal of the list of their values. -/
theorem substituteSpan_range_iff (hfirst : s.grid.locate? first = some a) (hlast : s.grid.locate? last = some b)
    {cs : List Cell} (hordered : cs.Pairwise Cell.Before)
    (hmem : ∀ c, c ∈ cs ↔ (Area.spanning a b).contains c = true) {t t' : Trail} {r : Except Error Text} :
    (s.substituteSpan value (.range first gap last)).result t = (r, t') ↔
      ∃ vs, Walk.Visits value cs t vs t' ∧ r = vs.map fun vs => (Value.array vs).literal := by
  rw [substituteSpan_range hfirst hlast, Walk.result_map, Area.eq_cells_of_ordered hordered hmem, Prod.mk.injEq]
  constructor
  · rintro ⟨rfl, rfl⟩
    exact ⟨_, Walk.result_mapM_iff.1 rfl, rfl⟩
  · rintro ⟨vs, hvisits, rfl⟩
    rw [Walk.result_mapM_iff.2 hvisits]
    exact ⟨rfl, rfl⟩

/-! ### Formulas -/

/-- The spans are the same, or both are ranges that name opposite corners of one area. -/
inductive SameSpan (s : Setting) : Span → Span → Prop
  | refl (span : Span) : s.SameSpan span span
  | range {first gap last first' gap' last' : Text} {a b : Cell} {p : Cell × Cell} (hp : p ∈ Area.corners a b)
      (hfirst : s.grid.locate? first = some a) (hlast : s.grid.locate? last = some b)
      (hfirst' : s.grid.locate? first' = some p.1) (hlast' : s.grid.locate? last' = some p.2) :
      s.SameSpan (.range first gap last) (.range first' gap' last')

/-- The pieces are the same but for the corners that ranges are written by. -/
inductive SamePiece (s : Setting) : Text.Piece → Text.Piece → Prop
  | quoted (t : Text) : s.SamePiece (.quoted t) (.quoted t)
  | code {t t' : Text} (h : List.Forall₂ s.SameSpan (scan t) (scan t')) : s.SamePiece (.code t) (.code t')

/-- The formulas are the same but for the corners that ranges are written by. -/
def Recornered (s : Setting) (body body' : Text) : Prop :=
  List.Forall₂ s.SamePiece (Text.pieces body) (Text.pieces body')

theorem mapM_congr_of_forall₂ {ι α : Type} {R : ι → ι → Prop} {f : ι → Walk α} (hR : ∀ x y, R x y → f x = f y)
    {xs ys : List ι} (h : List.Forall₂ R xs ys) : xs.mapM f = ys.mapM f := by
  induction h with
  | nil => rfl
  | cons hxy _ ih => rw [List.mapM_cons, List.mapM_cons, hR _ _ hxy, ih]

theorem SameSpan.substituteSpan {span span' : Span} (h : s.SameSpan span span') :
    s.substituteSpan value span = s.substituteSpan value span' := by
  cases h with
  | refl => rfl
  | range hp hfirst hlast hfirst' hlast' =>
    rw [substituteSpan_range hfirst hlast, substituteSpan_range hfirst' hlast', Area.spanning_of_corners hp]

theorem SamePiece.substitutePiece {piece piece' : Text.Piece} (h : s.SamePiece piece piece') :
    s.substitutePiece value piece = s.substitutePiece value piece' := by
  cases h with
  | quoted => rfl
  | @code t t' h =>
    have hspans : (scan t).mapM (s.substituteSpan value) = (scan t').mapM (s.substituteSpan value) :=
      mapM_congr_of_forall₂ (fun _ _ hspan => hspan.substituteSpan) h
    rw [Setting.substitutePiece, Setting.substitutePiece, hspans]

theorem Recornered.substitute (h : s.Recornered body body') : s.substitute value body = s.substitute value body' := by
  have hpieces :
      (Text.pieces body).mapM (s.substitutePiece value) = (Text.pieces body').mapM (s.substitutePiece value) :=
    mapM_congr_of_forall₂ (fun _ _ hpiece => hpiece.substitutePiece) h
  rw [Setting.substitute, Setting.substitute, hpieces]

/-- Two cells span the same area as any two opposite corners of it. Its cells are those that lie in it, each once and
row by row, and in this order a range looks them up, whichever values they have and whatever was looked up before. So
formulas that differ in the corners of their ranges only become the same text or fail with the same error. -/
theorem range_corners (s : Setting) :
    (∀ a b, Area.spanning a b = Area.spanning b a ∧
      ∀ p ∈ Area.corners a b, Area.spanning p.1 p.2 = Area.spanning a b) ∧
    (∀ a b, (∀ c, c ∈ (Area.spanning a b).cells ↔ (Area.spanning a b).contains c = true) ∧
      (Area.spanning a b).cells.Nodup ∧ (Area.spanning a b).cells.Pairwise Cell.Before) ∧
    (∀ value first gap last a b, s.grid.locate? first = some a → s.grid.locate? last = some b →
      ∀ cs : List Cell, cs.Pairwise Cell.Before → (∀ c, c ∈ cs ↔ (Area.spanning a b).contains c = true) →
        ∀ t r t', (s.substituteSpan value (.range first gap last)).result t = (r, t') ↔
          ∃ vs, Walk.Visits value cs t vs t' ∧ r = vs.map fun vs => (Value.array vs).literal) ∧
    ∀ value body body', s.Recornered body body' → s.substitute value body = s.substitute value body' := by
  refine ⟨fun a b => ⟨Area.spanning_comm a b, fun p => Area.spanning_of_corners⟩, fun a b => ?_, ?_, ?_⟩
  · exact ⟨fun c => Area.mem_cells, Area.nodup_cells _, Area.cells_ordered _⟩
  · intro value first gap last a b hfirst hlast cs hordered hmem t r t'
    exact substituteSpan_range_iff hfirst hlast hordered hmem
  · exact fun value body body' h => h.substitute

/-- The first error in a range is the first one row by row, also when the range is written from the upper right to the
lower left. -/
theorem range_corners_first_error :
    let grid := ((Grid.empty 2 2).set ⟨0, 1⟩ "=1+".toList).set ⟨1, 0⟩ "=A2".toList
    let s : Setting := { grid := grid }
    let value := s.cellValue maxDepth
    (∃ t', Walk.Visits value [⟨0, 0⟩, ⟨0, 1⟩, ⟨1, 0⟩, ⟨1, 1⟩] Trail.empty (.error (.script .malformed)) t') ∧
      s.substitute value "sum(A1:B2)".toList = s.substitute value "sum(B1 : A2)".toList := by
  intro grid s value
  obtain ⟨-, -, hvisits, hsubstitute⟩ := range_corners s
  have hA1 : s.grid.locate? "A1".toList = some ⟨0, 0⟩ := by decide +kernel
  have hB2 : s.grid.locate? "B2".toList = some ⟨1, 1⟩ := by decide +kernel
  have hB1 : s.grid.locate? "B1".toList = some ⟨0, 1⟩ := by decide +kernel
  have hA2 : s.grid.locate? "A2".toList = some ⟨1, 0⟩ := by decide +kernel
  constructor
  · have hcells : (Area.spanning ⟨0, 1⟩ ⟨1, 0⟩).cells = [⟨0, 0⟩, ⟨0, 1⟩, ⟨1, 0⟩, ⟨1, 1⟩] := by decide
    have herror : ((s.substituteSpan value (.range "B1".toList [':'] "A2".toList)).result Trail.empty).1 =
        .error (.script .malformed) := by decide +kernel
    obtain ⟨vs, hvs, heq⟩ := (hvisits value "B1".toList [':'] "A2".toList ⟨0, 1⟩ ⟨1, 0⟩ hB1 hA2 _ (Area.cells_ordered _)
      (fun c => Area.mem_cells) Trail.empty _ _).1 (Prod.ext herror rfl)
    obtain e | vs := vs
    · obtain ⟨⟩ := heq
      exact ⟨_, hcells ▸ hvs⟩
    · cases heq
  · have hbody : Text.pieces "sum(A1:B2)".toList = [.code "sum(A1:B2)".toList] := by decide +kernel
    have hbody' : Text.pieces "sum(B1 : A2)".toList = [.code "sum(B1 : A2)".toList] := by decide +kernel
    have hscan : scan "sum(A1:B2)".toList =
        [.plain "sum".toList, .plain ['('], .range "A1".toList [':'] "B2".toList, .plain [')']] := by decide +kernel
    have hscan' : scan "sum(B1 : A2)".toList =
        [.plain "sum".toList, .plain ['('], .range "B1".toList [' ', ':', ' '] "A2".toList, .plain [')']] := by
      decide +kernel
    have hspan : s.SameSpan (.range "A1".toList [':'] "B2".toList) (.range "B1".toList [' ', ':', ' '] "A2".toList) :=
      .range (p := (⟨0, 1⟩, ⟨1, 0⟩)) (by decide) hA1 hB2 hB1 hA2
    refine hsubstitute value _ _ ?_
    rw [Recornered, hbody, hbody']
    refine .cons (.code ?_) .nil
    rw [hscan, hscan']
    exact .cons (.refl _) (.cons (.refl _) (.cons hspan (.cons (.refl _) .nil)))

end Setting

end Spreadsheet.Formula
