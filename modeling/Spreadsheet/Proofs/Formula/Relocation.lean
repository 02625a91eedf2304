import Spreadsheet.Proofs.Area
import Spreadsheet.Proofs.Formula.Cycles

/-!
# Carrying evaluations over to another grid

A relocation maps cells of one grid to cells of another that hold the same contents and are named by the
same tokens. What comes to a result in the first grid comes to the same result in the second, step by step: the
trails of the two evaluations differ only by the map (`Walk.Carries`). It need not hold of all cells, but only of
those that the evaluation may get to, a set of cells closed under references.
-/

namespace Spreadsheet

namespace Formula

open Script (Value)

/-! ### Trails -/

namespace Trail

/-- The trail with every cell replaced by where it is in another grid. -/
def relocate (σ : Cell → Cell) (t : Trail) : Trail where
  visiting := t.visiting.map σ
  found := t.found.map fun p => (σ p.1, p.2)

/-- Every cell on the trail satisfies `P`. -/
structure Within (P : Cell → Prop) (t : Trail) : Prop where
  visiting : ∀ c ∈ t.visiting, P c
  found : ∀ p ∈ t.found, P p.1

variable {P : Cell → Prop} {σ : Cell → Cell} {t : Trail} {c : Cell}

theorem relocate_id (t : Trail) : t.relocate id = t := by simp [relocate]

theorem within_empty : Within P empty := ⟨nofun, nofun⟩

namespace Within

theorem enter (h : t.Within P) (hc : P c) : (t.enter c).Within P :=
  ⟨List.forall_mem_cons.2 ⟨hc, h.visiting⟩, h.found⟩

theorem leave (h : t.Within P) : t.leave.Within P :=
  ⟨fun d hd => h.visiting d (List.mem_of_mem_tail hd), h.found⟩

theorem record (h : t.Within P) (hc : P c) (v : Value) : (t.record c v).Within P :=
  ⟨h.visiting, List.forall_mem_cons.2 ⟨hc, h.found⟩⟩

end Within

theorem relocate_leave (t : Trail) : (t.relocate σ).leave = t.leave.relocate σ := by
  simp [relocate, leave, List.map_tail]

section Injective

variable (hσ : ∀ c d, P c → P d → σ c = σ d → c = d)
include hσ

theorem mem_visiting_relocate (ht : t.Within P) (hc : P c) :
    σ c ∈ (t.relocate σ).visiting ↔ c ∈ t.visiting := by
  refine ⟨fun h => ?_, fun h => List.mem_map_of_mem h⟩
  obtain ⟨d, hd, hdc⟩ := List.mem_map.1 h
  obtain rfl := hσ d c (ht.visiting d hd) hc hdc
  exact hd

theorem value?_relocate (ht : t.Within P) (hc : P c) : (t.relocate σ).value? (σ c) = t.value? c := by
  have hlookup : ∀ found : List (Cell × Value), (∀ p ∈ found, P p.1) →
      (found.map fun p => (σ p.1, p.2)).lookup (σ c) = found.lookup c := by
    intro found hfound
    induction found with
    | nil => rfl
    | cons p l ih =>
      obtain ⟨hp, hl⟩ := List.forall_mem_cons.1 hfound
      have hkey : (σ c == σ p.1) = (c == p.1) := by
        rw [Bool.eq_iff_iff, beq_iff_eq, beq_iff_eq]
        exact ⟨hσ c p.1 hc hp, congrArg σ⟩
      rw [List.map_cons, List.lookup_cons, List.lookup_cons, hkey, ih hl]
  exact hlookup t.found ht.found

end Injective

end Trail

/-! ### Walks -/

namespace Walk

variable {α β : Type}

theorem result_bind_eq_ok {w : Walk α} {k : α → Walk β} {t t' : Trail} {b : β} :
    result (w >>= k) t = (.ok b, t') ↔ ∃ a u, w.result t = (.ok a, u) ∧ (k a).result u = (.ok b, t') := by
  rw [result_bind]
  rcases w.result t with ⟨e | a, u⟩
  · simp
  · simp

/-- What a walk goes on with matters only for what comes of it. -/
theorem bind_congr_of_result {w : Walk α} {k k' : α → Walk β}
    (h : ∀ t a t', w.result t = (.ok a, t') → k a = k' a) : (w >>= k) = w >>= k' := by
  funext t
  change result (w >>= k) t = result (w >>= k') t
  rw [result_bind, result_bind]
  rcases hr : w.result t with ⟨e | a, t'⟩
  · rfl
  · dsimp only
    rw [h t a t' hr]

theorem mapM_congr {ι : Type} {xs : List ι} {f g : ι → Walk α} (h : ∀ x ∈ xs, f x = g x) :
    xs.mapM f = xs.mapM g := by
  induction xs with
  | nil => rfl
  | cons x xs ih =>
    rw [List.forall_mem_cons] at h
    rw [List.mapM_cons, List.mapM_cons, h.1, ih h.2]

/-- From a trail of cells with `P`, where the first walk comes to a result, the second comes to the same result
from the relocated trail, and the trails that they leave correspond again. -/
def Carries (P : Cell → Prop) (σ : Cell → Cell) (w w' : Walk α) : Prop :=
  ∀ t a t', t.Within P → w.result t = (.ok a, t') →
    w'.result (t.relocate σ) = (.ok a, t'.relocate σ) ∧ t'.Within P

namespace Carries

variable {P : Cell → Prop} {σ : Cell → Cell} {w w' : Walk α}

theorem pure (a : α) : Carries P σ (pure a) (pure a) := by
  intro t b t' ht h
  cases h
  exact ⟨rfl, ht⟩

theorem throw (e : Error) : Carries P σ (throw e) w' := by
  intro t b t' ht h
  cases h

theorem bind {k k' : α → Walk β} (hw : Carries P σ w w') (hk : ∀ a, Carries P σ (k a) (k' a)) :
    Carries P σ (w >>= k) (w' >>= k') := by
  intro t b t' ht h
  obtain ⟨a, u, ha, hb⟩ := result_bind_eq_ok.1 h
  obtain ⟨ha', hu⟩ := hw t a u ht ha
  obtain ⟨hb', ht'⟩ := hk a u b t' hu hb
  exact ⟨result_bind_eq_ok.2 ⟨a, _, ha', hb'⟩, ht'⟩

theorem within {c : Cell} (hw : Carries P σ w w') (hc : P c) : Carries P σ (within c w) (within (σ c) w') := by
  intro t a t' ht h
  rw [result_within] at h ⊢
  rcases hr : w.result (t.enter c) with ⟨r, u⟩
  rw [hr] at h
  cases h
  obtain ⟨hr', hu⟩ := hw _ a u (ht.enter hc) hr
  have henter : (t.relocate σ).enter (σ c) = (t.enter c).relocate σ := rfl
  rw [henter, hr', Trail.relocate_leave]
  exact ⟨rfl, hu.leave⟩

end Carries

/-- The walk with every error replaced by one that is not about references. -/
def masked (w : Walk α) : Walk α := fun t => ((w.result t).1.mapError fun _ => Error.pending, (w.result t).2)

theorem result_masked (w : Walk α) (t : Trail) :
    w.masked.result t = ((w.result t).1.mapError fun _ => Error.pending, (w.result t).2) := rfl

theorem carries_masked (w : Walk α) : w.Carries (fun _ => True) id w.masked := by
  intro t a t' _ h
  rw [Trail.relocate_id, Trail.relocate_id, result_masked, h]
  exact ⟨rfl, fun _ _ => trivial, fun _ _ => trivial⟩

theorem masked_checks (w : Walk α) : w.masked.Gives (fun _ => True) (Checks True) := by
  intro t _
  rw [result_masked]
  rcases w.result t with ⟨_ | a, t'⟩
  · exact ⟨fun _ => nofun, trivial⟩
  · exact ⟨trivial, trivial⟩

end Walk

/-- A computation carries over if the walks to the values that it asks for do. -/
theorem Reads.carries {α : Type} {P : Cell → Prop} {σ : Cell → Cell} {ds : List Cell}
    {f : (Cell → Walk Value) → Walk α} {value value' : Cell → Walk Value} (h : Reads ds f)
    (hv : ∀ d ∈ ds, (value d).Carries P σ (value' d)) : (f value).Carries P σ (f value') := by
  induction h with
  | done a => exact .pure a
  | fail ds e => exact .throw e
  | read h ih =>
    rw [List.forall_mem_cons] at hv
    exact hv.1.bind fun v => ih v hv.2

/-- The texts of a formula that are evaluated: the arguments of a generation call, or else all of it. -/
def expressions (body : Text) : List Text := (generationArguments? body).getD [body]

namespace Setting

/-- The outcome of a content in a cell or outside all cells. -/
def evaluateAt (s : Setting) : Option Cell → Text → Outcome
  | some c => s.evaluate c
  | none => s.evaluateDetached

theorem evaluateAt_eq (s : Setting) (c : Option Cell) (content : Text) :
    s.evaluateAt c content = s.evaluateWith true c content := by
  cases c with
  | none => exact s.evaluateDetached_eq content
  | some c => exact s.evaluate_eq c content

variable {s s' : Setting}

/-! ### Relocations -/

/-- Whatever the references of a formula stand for, its expressions have the same scripts at both positions. -/
def SameScripts (s : Setting) (c c' : Option Cell) (body : Text) : Prop :=
  ∀ e ∈ expressions body, ∀ value t text t',
    (s.substitute value e).result t = (.ok text, t') → desugar c' text = desugar c text

/-- The cells with `P` are found in another grid along `σ`: with their contents, under the tokens that name them,
area by area. -/
structure Relocation (s s' : Setting) (σ : Cell → Cell) (P : Cell → Prop) : Prop where
  generation : s'.generation = s.generation
  language : s'.language = s.language
  injective : ∀ c d, P c → P d → σ c = σ d → c = d
  content : ∀ c, P c → s'.content (σ c) = s.content c
  locate : ∀ token c, P c → s.grid.locate? token = some c → s'.grid.locate? token = some (σ c)
  spanning : ∀ a b, (∀ c ∈ (Area.spanning a b).cells, P c) →
    (Area.spanning (σ a) (σ b)).cells = (Area.spanning a b).cells.map σ
  feeds : ∀ c d, P c → s.Feeds d c → P d
  scripts : ∀ c body, P c → body? (s.content c) = some body → s.SameScripts (some c) (some (σ c)) body

theorem inGrid_of_ok {value : Cell → Walk Value} {c : Option Cell} {body : Text} {t t' : Trail} {r : Result}
    (h : (s.formula value c body).result t = (.ok r, t')) : s.InGrid body := by
  -- the errors of the values do not matter, so let none of them be about references
  have hcarries : (s.formula value c body).Carries (fun _ => True) id (s.formula (fun d => (value d).masked) c body) :=
    (s.reads_formula c body).carries fun d _ => Walk.carries_masked (value d)
  have hmasked : ∀ d ∈ s.references body, (value d).masked.Gives (fun _ => True) (Checks True) :=
    fun d _ => Walk.masked_checks (value d)
  have hchecks := (formula_checks (c := c) hmasked (t.relocate id) trivial).1
  rw [(hcarries t r t' ⟨fun _ _ => trivial, fun _ _ => trivial⟩ h).1] at hchecks
  exact hchecks

theorem inGrid_of_arguments {body : Text} {args : List Text} (h : generationArguments? body = some args) :
    s.InGrid body ↔ ∀ arg ∈ args, s.InGrid arg := by
  rw [InGrid, mentions_of_generationArguments? h, List.forall_mem_flatMap]
  rfl

namespace Relocation

variable {σ : Cell → Cell} {P : Cell → Prop} {value : Cell → Walk Value}

theorem substituteSpan (h : Relocation s s' σ P) {span : Span} (hspan : s.Locates span)
    (hP : ∀ d ∈ s.cells span, P d) : s'.substituteSpan value span = s.substituteSpan (value ∘ σ) span := by
  cases span with
  | plain t => rfl
  | single token =>
    obtain ⟨c, hc⟩ := Option.isSome_iff_exists.1 hspan
    have hPc : P c := hP c (by simp [cells, hc])
    simp only [Setting.substituteSpan, Setting.locate, hc, h.locate token c hPc hc, pure_bind, Function.comp]
  | range first gap last =>
    obtain ⟨a, ha⟩ := Option.isSome_iff_exists.1 hspan.1
    obtain ⟨b, hb⟩ := Option.isSome_iff_exists.1 hspan.2
    have harea : ∀ c ∈ (Area.spanning a b).cells, P c := by simpa [cells, ha, hb] using hP
    have hPa : P a := harea a (Area.mem_spanning_left a b)
    have hPb : P b := harea b (Area.mem_spanning_right a b)
    simp only [Setting.substituteSpan, Setting.locate, ha, hb, h.locate first a hPa ha, h.locate last b hPb hb,
      pure_bind, h.spanning a b harea, List.mapM_map]

theorem substitute (h : Relocation s s' σ P) {body : Text} (hbody : s.InGrid body)
    (hP : ∀ d ∈ s.references body, P d) : s'.substitute value body = s.substitute (value ∘ σ) body := by
  rw [← flatMap_cells] at hP
  rw [inGrid_iff] at hbody
  have hpiece : ∀ piece ∈ Text.pieces body, s'.substitutePiece value piece = s.substitutePiece (value ∘ σ) piece := by
    intro piece hpiece
    cases piece with
    | quoted t => rfl
    | code t =>
      have hspan : ∀ span ∈ scan t, s'.substituteSpan value span = s.substituteSpan (value ∘ σ) span := by
        intro span hspan
        have hmem : span ∈ spans body := List.mem_flatMap.2 ⟨_, hpiece, hspan⟩
        exact h.substituteSpan (hbody span hmem) fun d hd => hP d (List.mem_flatMap.2 ⟨span, hmem, hd⟩)
      rw [substitutePiece, substitutePiece, Walk.mapM_congr hspan]
  rw [Setting.substitute, Setting.substitute, Walk.mapM_congr hpiece]

theorem expression (h : Relocation s s' σ P) {c c' : Option Cell} {body : Text} (hbody : s.InGrid body)
    (hP : ∀ d ∈ s.references body, P d)
    (hscript : ∀ value t text t', (s.substitute value body).result t = (.ok text, t') → desugar c' text = desugar c text) :
    s'.expression value c' body = s.expression (value ∘ σ) c body := by
  rw [Setting.expression, Setting.expression, h.substitute hbody hP]
  refine Walk.bind_congr_of_result fun t text t' ht => ?_
  rw [hscript _ t text t' ht, h.language]

/-- A formula whose cells all have `P` is evaluated alike in both grids. -/
theorem formula (h : Relocation s s' σ P) {c c' : Option Cell} {body : Text} (hbody : s.InGrid body)
    (hP : ∀ d ∈ s.references body, P d) (hscripts : s.SameScripts c c' body) :
    s'.formula value c' body = s.formula (value ∘ σ) c body := by
  unfold SameScripts expressions at hscripts
  unfold Setting.formula
  split
  · next args hargs =>
    rw [hargs, Option.getD_some] at hscripts
    rw [s.references_of_generationArguments? hargs] at hP
    rw [inGrid_of_arguments hargs] at hbody
    have hargument : ∀ e ∈ args, s'.expression value c' e = s.expression (value ∘ σ) c e := fun e he =>
      h.expression (hbody e he) (fun d hd => hP d (List.mem_flatMap.2 ⟨e, he, hd⟩)) (hscripts e he)
    have hrequest : s'.request value c' args = s.request (value ∘ σ) c args := by
      unfold Setting.request
      split
      · next prompt model =>
        rw [h.generation, hargument prompt (by simp), hargument model (by simp)]
      · rfl
    rw [hrequest]
  · next hargs =>
    rw [hargs, Option.getD_none] at hscripts
    rw [h.expression hbody hP (hscripts body (by simp))]

/-! ### Evaluations -/

theorem formula_carries (h : Relocation s s' σ P) {value' : Cell → Walk Value} {c c' : Option Cell} {body : Text}
    (hP : ∀ d ∈ s.references body, P d) (hscripts : s.SameScripts c c' body)
    (hvalue : ∀ d, P d → (value d).Carries P σ (value' (σ d))) :
    (s.formula value c body).Carries P σ (s'.formula value' c' body) := by
  intro t r t' ht hr
  rw [h.formula (inGrid_of_ok hr) hP hscripts]
  exact (s.reads_formula c body).carries (fun d hd => hvalue d (hP d hd)) t r t' ht hr

theorem ownValue_carries (h : Relocation s s' σ P) {next next' : Option (Cell → Walk Value)} {c : Cell} (hc : P c)
    (hnext : ∀ value, next = some value → ∃ value', next' = some value' ∧
      ∀ d, P d → (value d).Carries P σ (value' (σ d))) :
    (s.ownValue next c).Carries P σ (s'.ownValue next' (σ c)) := by
  intro t v t' ht hv
  rw [result_ownValue] at hv ⊢
  rw [h.content c hc]
  cases hbody : body? (s.content c) with
  | none =>
    rw [hbody] at hv
    cases hv
    exact ⟨rfl, ht⟩
  | some body =>
    simp only [hbody] at hv
    simp only [Trail.mem_visiting_relocate h.injective ht hc]
    split at hv
    · cases hv
    next hmem =>
    rw [if_neg hmem]
    cases next with
    | none => cases hv
    | some value =>
      obtain ⟨value', rfl, hvalue⟩ := hnext value rfl
      rcases hr : (s.formula value (some c) body).result (t.enter c) with ⟨r, u⟩
      simp only [hr, Prod.mk.injEq] at hv
      obtain ⟨hok, rfl⟩ := hv
      obtain rfl : r = .ok (.value v) := asValue_eq_ok.1 hok
      have hP : ∀ d ∈ s.references body, P d := fun d hd => h.feeds c d hc ⟨body, hbody, hd⟩
      obtain ⟨hr', hu⟩ := h.formula_carries hP (h.scripts c body hc hbody) hvalue _ _ _ (ht.enter hc) hr
      have henter : (t.relocate σ).enter (σ c) = (t.enter c).relocate σ := rfl
      simp only [henter, hr', Trail.relocate_leave]
      exact ⟨rfl, hu.leave⟩

theorem remember_carries (h : Relocation s s' σ P) {c : Cell} (hc : P c) {w w' : Walk Value}
    (hw : w.Carries P σ w') : (remember true c w).Carries P σ (remember true (σ c) w') := by
  intro t v t' ht hv
  have hfound := Trail.value?_relocate h.injective ht hc
  rw [remember, if_pos rfl, Walk.result_get_bind] at hv ⊢
  rw [hfound]
  cases ht' : t.value? c with
  | some v' =>
    rw [ht'] at hv
    cases hv
    exact ⟨rfl, ht⟩
  | none =>
    rw [ht'] at hv
    have hrecord : ∀ v, (modify (Trail.record c v) >>= fun _ => pure v : Walk Value).Carries P σ
        (modify (Trail.record (σ c) v) >>= fun _ => pure v) := by
      intro v t v' t' ht hv
      cases hv
      exact ⟨rfl, ht.record hc v⟩
    exact hw.bind hrecord t v t' ht hv

theorem valueWith_carries (h : Relocation s s' σ P) (depth : Nat) {c : Cell} (hc : P c) :
    (s.valueWith true depth c).Carries P σ (s'.valueWith true depth (σ c)) := by
  induction depth generalizing c with
  | zero => exact h.remember_carries hc (h.ownValue_carries hc nofun)
  | succ depth ih =>
    refine h.remember_carries hc (h.ownValue_carries hc fun value hvalue => ⟨_, rfl, fun d hd => ?_⟩)
    cases hvalue
    exact ih hd

theorem walk_carries (h : Relocation s s' σ P) {c : Option Cell} {body : Text} (hc : ∀ d ∈ c, P d)
    (hP : ∀ d ∈ s.references body, P d) (hscripts : s.SameScripts c (c.map σ) body) :
    (s.walk true c body).Carries P σ (s'.walk true (c.map σ) body) := by
  cases c with
  | none => exact h.formula_carries hP hscripts fun d => h.valueWith_carries maxDepth
  | some c =>
    exact (h.formula_carries hP hscripts fun d => h.valueWith_carries (maxDepth - 1)).within (hc c rfl)

/-- A content that comes to no error comes to the same outcome where its cell has gone, if the content and all that it
leads to are relocated. -/
theorem evaluateAt (h : Relocation s s' σ P) {c : Option Cell} {content : Text} (hc : ∀ d ∈ c, P d)
    (hP : ∀ body, body? content = some body → ∀ d ∈ s.references body, P d)
    (hscripts : ∀ body, body? content = some body → s.SameScripts c (c.map σ) body)
    (hok : (s.evaluateAt c content).isError = false) :
    s'.evaluateAt (c.map σ) content = s.evaluateAt c content := by
  rw [evaluateAt_eq, evaluateWith] at hok
  rw [evaluateAt_eq, evaluateAt_eq, evaluateWith, evaluateWith]
  cases hbody : body? content with
  | none => rfl
  | some body =>
    rw [hbody] at hok
    obtain ⟨r, hr⟩ := exists_ok_of_outcome hok
    have hresult : (s.walk true c body).result Trail.empty = (.ok r, _) := Prod.ext hr rfl
    obtain ⟨hr', -⟩ := h.walk_carries hc (hP body hbody) (hscripts body hbody) _ _ _ Trail.within_empty hresult
    dsimp only
    rw [outcome_of_ok hr, outcome_of_ok (w := s'.walk true (c.map σ) body) (congrArg Prod.fst hr')]

end Relocation

end Setting

end Formula

end Spreadsheet
