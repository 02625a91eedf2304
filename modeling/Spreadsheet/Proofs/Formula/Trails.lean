import Mathlib.Data.List.Flatten
import Spreadsheet.Proofs.Grid
import Spreadsheet.Proofs.Formula.Relocation

/-!
# The discipline of trails

`Course` says how an evaluation goes and what it does to its trail, step by step and with no bound on the steps:
a cell whose formula is not on the trail is entered as long as fewer than `maxDepth` formulas are being evaluated,
and left whatever comes of it. Every computation that reads cells has a course (`exists_course`), since each formula
that is entered takes one from what is left of `maxDepth`. A course ends where the evaluation ends
(`Course.result_eq`) and puts back the formulas on the trail (`Course.visiting_eq`). A cell that has been left either
has its value on the trail or has ended the evaluation, so none is entered twice (`Course.nodup_entered`) and the
values that are asked for are at most as many as the references there are (`Course.length_looked_le_of_cells`).
-/

namespace Spreadsheet.Formula

open Script (Value)

namespace Trail

/-- What an evaluation does with a trail. -/
inductive Event
  /-- Asks for the value of a cell. -/
  | look (c : Cell)
  | enter (c : Cell)
  | leave
  | record (c : Cell) (v : Value)

namespace Event

def apply : Event → Trail → Trail
  | look _, t => t
  | enter c, t => t.enter c
  | leave, t => t.leave
  | record c v, t => t.record c v

/-- The cells that are asked for, in order. -/
def looked : List Event → List Cell := List.filterMap fun
  | look c => some c
  | _ => none

/-- The cells that are entered, in order. -/
def entered : List Event → List Cell := List.filterMap fun
  | enter c => some c
  | _ => none

/-- Asks for the value of a cell and evaluates the formula in it. -/
def visit (c : Cell) (es : List Event) : List Event := look c :: enter c :: es ++ [leave]

variable (es es' : List Event) (c : Cell) (v : Value)

@[simp] theorem looked_append : looked (es ++ es') = looked es ++ looked es' := List.filterMap_append

@[simp] theorem entered_append : entered (es ++ es') = entered es ++ entered es' := List.filterMap_append

@[simp] theorem looked_visit : looked (visit c es) = c :: looked es := by
  simp [visit, looked]

@[simp] theorem entered_visit : entered (visit c es) = c :: entered es := by
  simp [visit, entered]

@[simp] theorem looked_visit_record : looked (visit c es ++ [record c v]) = c :: looked es := by
  rw [looked_append, looked_visit]
  exact List.append_nil _

@[simp] theorem entered_visit_record : entered (visit c es ++ [record c v]) = c :: entered es := by
  rw [entered_append, entered_visit]
  exact List.append_nil _

end Event

def after (t : Trail) (es : List Event) : Trail := es.foldl (fun t e => e.apply t) t

/-- All trails from before the first event to after the last. -/
def stages : Trail → List Event → List Trail
  | t, [] => [t]
  | t, e :: es => t :: stages (e.apply t) es

/-- No formula is on the trail twice, and there are no more than `maxDepth`. -/
structure Orderly (t : Trail) : Prop where
  nodup : t.visiting.Nodup
  length_le : t.visiting.length ≤ maxDepth

variable {t : Trail} {es es' : List Event} {c d : Cell} {v : Value}

@[simp] theorem after_nil (t : Trail) : t.after [] = t := rfl

@[simp] theorem after_cons (t : Trail) (e : Event) (es : List Event) : t.after (e :: es) = (e.apply t).after es := rfl

@[simp] theorem after_append (t : Trail) (es es' : List Event) : t.after (es ++ es') = (t.after es).after es' :=
  List.foldl_append

@[simp] theorem after_visit (t : Trail) (c : Cell) (es : List Event) :
    t.after (Event.visit c es) = ((t.enter c).after es).leave := by
  simp [Event.visit, Event.apply]

theorem mem_stages_self : t ∈ t.stages es := by
  cases es <;> simp [stages]

theorem mem_stages_append {u : Trail} : u ∈ t.stages (es ++ es') ↔ u ∈ t.stages es ∨ u ∈ (t.after es).stages es' := by
  induction es generalizing t with
  | nil =>
    simp only [List.nil_append, stages, List.mem_singleton, after_nil]
    constructor
    · exact .inr
    · rintro (rfl | h)
      · exact mem_stages_self
      · exact h
  | cons e es ih => simp only [List.cons_append, stages, List.mem_cons, ih, after_cons, or_assoc]

theorem Orderly.enter (h : t.Orderly) (hc : c ∉ t.visiting) (hlength : t.visiting.length < maxDepth) :
    (t.enter c).Orderly :=
  ⟨List.nodup_cons.2 ⟨hc, h.nodup⟩, hlength⟩

theorem Orderly.of_visiting {t' : Trail} (h : t.Orderly) (ht : t'.visiting = t.visiting) : t'.Orderly :=
  ⟨ht ▸ h.nodup, ht ▸ h.length_le⟩

/-- A visit keeps a trail orderly if the formula takes its own trail back to where it was. -/
theorem Orderly.visit (h : t.Orderly) (hc : c ∉ t.visiting) (hlength : t.visiting.length < maxDepth)
    (hstages : (t.enter c).Orderly → ∀ u ∈ (t.enter c).stages es, u.Orderly)
    (hafter : ((t.enter c).after es).visiting = (t.enter c).visiting) :
    ∀ u ∈ t.stages (Event.visit c es), u.Orderly := by
  have henter := h.enter hc hlength
  have hleave : ((t.enter c).after es).leave.visiting = t.visiting := congrArg List.tail hafter
  intro u hu
  simp only [Event.visit, List.cons_append, stages, List.mem_cons, Event.apply, mem_stages_append,
    List.not_mem_nil, or_false] at hu
  rcases hu with rfl | rfl | hu | rfl | rfl
  · exact h
  · exact h
  · exact hstages henter u hu
  · exact henter.of_visiting hafter
  · exact h.of_visiting hleave

theorem value?_record_self : (t.record c v).value? c = some v := by
  simp [record, value?]

theorem isSome_value?_record (h : (t.value? d).isSome) : ((t.record c v).value? d).isSome := by
  rw [record, value?, List.lookup_cons]
  split
  · rfl
  · exact h

theorem isSome_value?_after (h : (t.value? c).isSome) : ((t.after es).value? c).isSome := by
  induction es generalizing t with
  | nil => exact h
  | cons e es ih =>
    refine ih ?_
    cases e with
    | record d v => exact isSome_value?_record h
    | look | enter | leave => exact h

end Trail

open Trail (Event)
open Trail.Event (look record visit looked entered)

namespace Setting

variable (s : Setting)

/-- How a computation goes that may ask for the values of the cells in the list, in this order: the trail it starts
with, what it does with the trail, what comes of it, and the trail it ends with. -/
inductive Course : {α : Type} → List Cell → ((Cell → Walk Value) → Walk α) → Trail → List Event →
    Except Error α → Trail → Prop
  | pure {α : Type} {t : Trail} (a : α) : Course [] (fun _ => pure a) t [] (.ok a) t
  | throw {α : Type} {t : Trail} (ds : List Cell) (e : Error) :
    Course ds (fun _ => (throw e : Walk α)) t [] (.error e) t
  | bind {α β : Type} {ds ds' : List Cell} {f : (Cell → Walk Value) → Walk α}
    {g : α → (Cell → Walk Value) → Walk β} {t t' t'' : Trail} {es es' : List Event} {a : α} {r : Except Error β}
    (hf : Course ds f t es (.ok a) t') (hg : Course ds' (g a) t' es' r t'') :
    Course (ds ++ ds') (fun value => f value >>= fun a => g a value) t (es ++ es') r t''
  /-- An error ends the whole computation. -/
  | abort {α β : Type} {ds : List Cell} (ds' : List Cell) {f : (Cell → Walk Value) → Walk α}
    {g : α → (Cell → Walk Value) → Walk β} {t t' : Trail} {es : List Event} {e : Error}
    (hf : Course ds f t es (.error e) t') :
    Course (ds ++ ds') (fun value => f value >>= fun a => g a value) t es (.error e) t'
  | found {c : Cell} {t : Trail} {v : Value} (hv : t.value? c = some v) :
    Course [c] (fun value => value c) t [look c] (.ok v) t
  | text {c : Cell} {t : Trail} (hnew : t.value? c = none) (hbody : body? (s.content c) = none) :
    Course [c] (fun value => value c) t [look c, record c (Value.ofRaw (s.content c))]
      (.ok (Value.ofRaw (s.content c))) (t.record c (Value.ofRaw (s.content c)))
  | circular {c : Cell} {t : Trail} {body : Text} (hnew : t.value? c = none)
    (hbody : body? (s.content c) = some body) (hc : c ∈ t.visiting) :
    Course [c] (fun value => value c) t [look c] (.error (.circular c)) t
  | tooDeep {c : Cell} {t : Trail} {body : Text} (hnew : t.value? c = none)
    (hbody : body? (s.content c) = some body) (hc : c ∉ t.visiting) (hdepth : maxDepth ≤ t.visiting.length) :
    Course [c] (fun value => value c) t [look c] (.error (.tooDeep c)) t
  | value {c : Cell} {t t' : Trail} {body : Text} {es : List Event} {v : Value} (hnew : t.value? c = none)
    (hbody : body? (s.content c) = some body) (hc : c ∉ t.visiting) (hdepth : t.visiting.length < maxDepth)
    (hformula : Course (s.references body) (fun value => s.formula value (some c) body) (t.enter c) es
      (.ok (.value v)) t') :
    Course [c] (fun value => value c) t (visit c es ++ [record c v]) (.ok v) (t'.leave.record c v)
  | failed {c : Cell} {t t' : Trail} {body : Text} {es : List Event} {r : Except Error Result} {e : Error}
    (hnew : t.value? c = none) (hbody : body? (s.content c) = some body) (hc : c ∉ t.visiting)
    (hdepth : t.visiting.length < maxDepth)
    (hformula : Course (s.references body) (fun value => s.formula value (some c) body) (t.enter c) es r t')
    (he : asValue r = .error e) :
    Course [c] (fun value => value c) t (visit c es) (.error e) t'.leave

/-- The references of the formula in a cell, if there is one. -/
def inputs (c : Cell) : List Cell := ((body? (s.content c)).map s.references).getD []

theorem inputs_of_body {c : Cell} {body : Text} (h : body? (s.content c) = some body) :
    s.inputs c = s.references body := by
  rw [inputs, h]
  rfl

variable {s} {α : Type} {ds : List Cell} {f : (Cell → Walk Value) → Walk α} {t t' : Trail} {es : List Event}
  {r : Except Error α}

/-! ### What a course does -/

theorem result_cellValue (depth : Nat) (c : Cell) (t : Trail) :
    (s.cellValue depth c).result t = (match t.value? c with
      | some v => (.ok v, t)
      | none => match (s.ownValue (depth.casesOn none fun n => some (s.cellValue n)) c).result t with
        | (.ok v, t') => (.ok v, t'.record c v)
        | (.error e, t') => (.error e, t')) := by
  rw [cellValue_unfold, remember, if_pos rfl, Walk.result_get_bind]
  cases t.value? c with
  | some v => rfl
  | none =>
    dsimp only
    rw [Walk.result_bind]
    rcases (s.ownValue _ c).result t with ⟨_ | v, t'⟩ <;> rfl

theorem result_cellValue_enter {c : Cell} {body : Text} {r : Except Error Result} (hnew : t.value? c = none)
    (hbody : body? (s.content c) = some body) (hc : c ∉ t.visiting) (hdepth : t.visiting.length < maxDepth)
    (h : (s.formula (s.cellValue (maxDepth - (t.enter c).visiting.length)) (some c) body).result (t.enter c) =
      (r, t')) :
    (s.cellValue (maxDepth - t.visiting.length) c).result t = (match asValue r with
      | .ok v => (.ok v, t'.leave.record c v)
      | .error e => (.error e, t'.leave)) := by
  obtain ⟨n, hn⟩ : ∃ n, maxDepth - t.visiting.length = n + 1 := ⟨maxDepth - t.visiting.length - 1, by omega⟩
  have hinner : maxDepth - (t.enter c).visiting.length = n := by
    simp only [Trail.enter, List.length_cons]
    omega
  rw [hinner] at h
  rw [hn, result_cellValue, hnew, result_ownValue, hbody]
  simp only [if_neg hc, h]
  cases asValue r <;> rfl

namespace Course

theorem after_eq (h : s.Course ds f t es r t') : t.after es = t' := by
  induction h with
  | pure | throw | found | text | circular | tooDeep => rfl
  | bind _ _ ihf ihg => rw [Trail.after_append, ihf, ihg]
  | abort _ _ ihf => exact ihf
  | value _ _ _ _ _ ih | failed _ _ _ _ _ _ ih =>
    simp only [Trail.after_append, Trail.after_visit, ih, Trail.after_cons, Event.apply, Trail.after_nil]

theorem visiting_eq (h : s.Course ds f t es r t') : t'.visiting = t.visiting := by
  induction h with
  | pure | throw | found | text | circular | tooDeep => rfl
  | bind _ _ ihf ihg => rw [ihg, ihf]
  | abort _ _ ihf => exact ihf
  | value _ _ _ _ _ ih | failed _ _ _ _ _ _ ih => exact congrArg List.tail ih

/-- A course goes as the evaluation goes that may enter as many formulas as the trail leaves room for. -/
theorem result_eq (h : s.Course ds f t es r t') :
    (f (s.cellValue (maxDepth - t.visiting.length))).result t = (r, t') := by
  induction h with
  | pure | throw => rfl
  | bind hf hg ihf ihg =>
    rw [hf.visiting_eq] at ihg
    rw [Walk.result_bind, ihf]
    exact ihg
  | abort ds' hf ihf => rw [Walk.result_bind, ihf]
  | found hv => exact (s.result_cellValue _ _ _).trans (by rw [hv])
  | text hnew hbody => exact (s.result_cellValue _ _ _).trans (by rw [hnew, result_ownValue, hbody])
  | circular hnew hbody hc =>
    refine (s.result_cellValue _ _ _).trans ?_
    rw [hnew, result_ownValue, hbody]
    simp only [if_pos hc]
  | tooDeep hnew hbody hc hdepth =>
    rw [Nat.sub_eq_zero_of_le hdepth]
    refine (s.result_cellValue _ _ _).trans ?_
    rw [hnew, result_ownValue, hbody]
    simp only [if_neg hc]
  | value hnew hbody hc hdepth _ ih => exact result_cellValue_enter hnew hbody hc hdepth ih
  | failed hnew hbody hc hdepth _ he ih =>
    refine (result_cellValue_enter hnew hbody hc hdepth ih).trans ?_
    rw [he]

theorem orderly (h : s.Course ds f t es r t') (ht : t.Orderly) : ∀ u ∈ t.stages es, u.Orderly := by
  induction h with
  | pure | throw | found | circular | tooDeep =>
    simp only [Trail.stages, List.mem_cons, List.not_mem_nil, or_false, Event.apply, or_self, forall_eq]
    exact ht
  | text =>
    simp only [Trail.stages, List.mem_cons, List.not_mem_nil, or_false, Event.apply]
    rintro u (rfl | rfl | rfl)
    · exact ht
    · exact ht
    · exact ht.of_visiting rfl
  | bind hf hg ihf ihg =>
    intro u hu
    rw [Trail.mem_stages_append, hf.after_eq] at hu
    rcases hu with hu | hu
    · exact ihf ht u hu
    · exact ihg (ht.of_visiting hf.visiting_eq) u hu
  | abort _ _ ihf => exact ihf ht
  | @value c t _ _ es v _ _ hc hdepth hformula ih =>
    have hafter : ((t.enter c).after es).visiting = (t.enter c).visiting := hformula.after_eq ▸ hformula.visiting_eq
    intro u hu
    rw [Trail.mem_stages_append] at hu
    rcases hu with hu | hu
    · exact ht.visit hc hdepth ih hafter u hu
    · have hvisit : (t.after (visit c es)).visiting = t.visiting := by
        rw [Trail.after_visit]
        exact congrArg List.tail hafter
      simp only [Trail.stages, List.mem_cons, Event.apply, List.not_mem_nil, or_false] at hu
      rcases hu with rfl | rfl
      · exact ht.of_visiting hvisit
      · exact ht.of_visiting hvisit
  | failed _ _ hc hdepth hformula _ ih => exact ht.visit hc hdepth ih (hformula.after_eq ▸ hformula.visiting_eq)

theorem value?_eq_none (h : s.Course ds f t es r t') {d : Cell} (hd : t'.value? d = none) : t.value? d = none := by
  rw [← Option.not_isSome_iff_eq_none, ← h.after_eq] at hd
  rw [← Option.not_isSome_iff_eq_none]
  exact fun hsome => hd (Trail.isSome_value?_after hsome)

theorem body_of_entered (h : s.Course ds f t es r t') : ∀ d ∈ entered es, (body? (s.content d)).isSome := by
  induction h with
  | pure | throw | found | text | circular | tooDeep => exact nofun
  | bind _ _ ihf ihg =>
    rw [Event.entered_append]
    exact List.forall_mem_append.2 ⟨ihf, ihg⟩
  | abort _ _ ihf => exact ihf
  | value _ hbody _ _ _ ih | failed _ hbody _ _ _ _ ih =>
    simp only [Event.entered_visit_record, Event.entered_visit]
    exact List.forall_mem_cons.2 ⟨hbody ▸ rfl, ih⟩

/-- A cell is entered only while its formula is not being evaluated and it has no value. -/
theorem fresh_of_entered (h : s.Course ds f t es r t') :
    ∀ d ∈ entered es, d ∉ t.visiting ∧ t.value? d = none := by
  induction h with
  | pure | throw | found | text | circular | tooDeep => exact nofun
  | bind hf hg ihf ihg =>
    rw [Event.entered_append]
    refine List.forall_mem_append.2 ⟨ihf, fun d hd => ?_⟩
    obtain ⟨hvisiting, hnew⟩ := ihg d hd
    exact ⟨hf.visiting_eq ▸ hvisiting, hf.value?_eq_none hnew⟩
  | abort _ _ ihf => exact ihf
  | value hnew _ hc _ _ ih | failed hnew _ hc _ _ _ ih =>
    simp only [Event.entered_visit_record, Event.entered_visit]
    refine List.forall_mem_cons.2 ⟨⟨hc, hnew⟩, fun d hd => ?_⟩
    obtain ⟨hvisiting, hd⟩ := ih d hd
    exact ⟨fun hmem => hvisiting (List.mem_cons_of_mem _ hmem), hd⟩

/-- A cell that has been entered has its value on the trail, unless an error has ended the evaluation. -/
theorem found_of_entered (h : s.Course ds f t es r t') {a : α} (hr : r = .ok a) :
    ∀ d ∈ entered es, (t'.value? d).isSome := by
  induction h with
  | pure | throw | found | text | circular | tooDeep => exact nofun
  | bind hf hg ihf ihg =>
    rw [Event.entered_append]
    refine List.forall_mem_append.2 ⟨fun d hd => ?_, ihg hr⟩
    exact hg.after_eq ▸ Trail.isSome_value?_after (ihf rfl d hd)
  | abort | failed => cases hr
  | value _ _ _ _ _ ih =>
    rw [Event.entered_visit_record]
    refine List.forall_mem_cons.2 ⟨?_, fun d hd => ?_⟩
    · rw [Trail.value?_record_self]
      rfl
    · exact Trail.isSome_value?_record (ih rfl d hd)

theorem nodup_entered (h : s.Course ds f t es r t') : (entered es).Nodup := by
  induction h with
  | pure | throw | found | text | circular | tooDeep => exact List.nodup_nil
  | bind hf hg ihf ihg =>
    rw [Event.entered_append]
    refine ihf.append ihg fun d hd hd' => ?_
    -- what was entered first has a value by now
    have hfound := hf.found_of_entered rfl d hd
    rw [(hg.fresh_of_entered d hd').2] at hfound
    cases hfound
  | abort _ _ ihf => exact ihf
  | value _ _ _ _ hformula ih | failed _ _ _ _ hformula _ ih =>
    simp only [Event.entered_visit_record, Event.entered_visit]
    exact List.nodup_cons.2 ⟨fun hc => (hformula.fresh_of_entered _ hc).1 List.mem_cons_self, ih⟩

/-- Each value that is asked for is asked for by a reference in the computation itself or in a formula that is
entered. -/
theorem length_looked_le (h : s.Course ds f t es r t') :
    (looked es).length ≤ ds.length + ((entered es).flatMap s.inputs).length := by
  induction h with
  | pure | throw | found | text | circular | tooDeep => simp [looked, entered]
  | bind _ _ ihf ihg =>
    rw [Event.looked_append, Event.entered_append, List.length_append, List.length_append, List.flatMap_append,
      List.length_append]
    omega
  | abort _ _ ihf =>
    rw [List.length_append]
    omega
  | value _ hbody _ _ _ ih | failed _ hbody _ _ _ _ ih =>
    simp only [Event.looked_visit_record, Event.looked_visit, Event.entered_visit_record, Event.entered_visit,
      List.flatMap_cons, List.length_append, List.length_cons, List.length_nil, inputs_of_body s hbody]
    omega

/-- An evaluation asks for at most as many values as it and all formulas together have references. -/
theorem length_looked_le_of_cells (h : s.Course ds f t es r t') {cells : List Cell}
    (hcells : ∀ d, (body? (s.content d)).isSome → d ∈ cells) :
    (looked es).length ≤ ds.length + (cells.flatMap s.inputs).length := by
  have hsubset : entered es ⊆ cells := fun d hd => hcells d (h.body_of_entered d hd)
  obtain ⟨l, hperm, hsublist⟩ := List.subperm_of_subset h.nodup_entered hsubset
  have hlength : ((entered es).flatMap s.inputs).length ≤ (cells.flatMap s.inputs).length :=
    calc ((entered es).flatMap s.inputs).length
      _ = (l.flatMap s.inputs).length := (hperm.flatMap_right _).length_eq.symm
      _ ≤ (cells.flatMap s.inputs).length := (hsublist.flatMap _).length_le
  exact h.length_looked_le.trans (Nat.add_le_add_left hlength _)

end Course

theorem mem_cells_of_body (h : s.grid.Wf) {d : Cell} (hd : (body? (s.content d)).isSome) : d ∈ s.grid.cells := by
  rw [Grid.mem_cells, h.contains_iff]
  by_contra hnone
  have hraw : s.grid.raw d = [] := by
    rw [Grid.raw, Option.not_isSome_iff_eq_none.1 hnone]
    rfl
  have hcontent : s.content d = [] := by
    rw [content, hraw, Styled.parse, Markup.peelAll_of_peel?_eq_none (by decide +kernel)]
  rw [hcontent] at hd
  cases hd

/-! ### Every evaluation has a course -/

/-- The value of a cell has a course if its formula does, as far as it may be entered. -/
theorem exists_course_of_formula {c : Cell} {t : Trail}
    (hformula : ∀ body, c ∉ t.visiting → t.visiting.length < maxDepth →
      ∃ es r t', s.Course (s.references body) (fun value => s.formula value (some c) body) (t.enter c) es r t') :
    ∃ es r t', s.Course [c] (fun value => value c) t es r t' := by
  cases hnew : t.value? c with
  | some v => exact ⟨_, _, _, .found hnew⟩
  | none =>
    cases hbody : body? (s.content c) with
    | none => exact ⟨_, _, _, .text hnew hbody⟩
    | some body =>
      by_cases hc : c ∈ t.visiting
      · exact ⟨_, _, _, .circular hnew hbody hc⟩
      by_cases hdepth : t.visiting.length < maxDepth
      · obtain ⟨es, r, t', h⟩ := hformula body hc hdepth
        cases he : asValue r with
        | error e => exact ⟨_, _, _, .failed hnew hbody hc hdepth h he⟩
        | ok v =>
          rw [asValue_eq_ok.1 he] at h
          exact ⟨_, _, _, .value hnew hbody hc hdepth h⟩
      · exact ⟨_, _, _, .tooDeep hnew hbody hc (Nat.le_of_not_lt hdepth)⟩

theorem exists_course_of_values (h : Reads ds f)
    (hvalue : ∀ d u, u.visiting = t.visiting → ∃ es r t', s.Course [d] (fun value => value d) u es r t') :
    ∃ es r t', s.Course ds f t es r t' := by
  induction h generalizing t with
  | done a => exact ⟨_, _, _, .pure a⟩
  | fail ds e => exact ⟨_, _, _, .throw ds e⟩
  | @read d ds k h ih =>
    obtain ⟨es, r, t', hd⟩ := hvalue d t rfl
    cases r with
    | error e => exact ⟨_, _, _, .abort ds hd⟩
    | ok v =>
      obtain ⟨es', r, t'', hk⟩ := ih v fun e u hu => hvalue e u (hu.trans hd.visiting_eq)
      exact ⟨_, _, _, .bind hd hk⟩

/-- The induction is on how many formulas may still be entered. -/
theorem exists_course_value (n : Nat) (hn : maxDepth ≤ t.visiting.length + n) (c : Cell) :
    ∃ es r t', s.Course [c] (fun value => value c) t es r t' := by
  induction n generalizing t c with
  | zero => exact exists_course_of_formula fun _ _ hdepth => absurd hdepth (by omega)
  | succ n ih =>
    refine exists_course_of_formula fun body _ _ => exists_course_of_values (s.reads_formula _ body) fun d u hu => ?_
    refine ih ?_ d
    rw [hu, Trail.enter, List.length_cons]
    omega

theorem exists_course (h : Reads ds f) (t : Trail) : ∃ es r t', s.Course ds f t es r t' :=
  exists_course_of_values h fun d _ _ => exists_course_value maxDepth (Nat.le_add_left _ _) d

/-! ### Discipline -/

variable (s) in
/-- A computation that starts with the trail comes to an end, and it goes as the evaluation goes that may enter as many
formulas as the trail leaves room for. It puts back the formulas on the trail, whatever comes of it, keeps the trail
orderly all the way and enters no cell that is on the trail or has been entered. It asks for at most as many values
as it and all formulas together have references. -/
structure Disciplined (ds : List Cell) (f : (Cell → Walk Value) → Walk α) (t : Trail) : Prop where
  terminates : ∃ es r t', s.Course ds f t es r t'
  result_eq : ∀ {es r t'}, s.Course ds f t es r t' →
    (f (s.cellValue (maxDepth - t.visiting.length))).result t = (r, t')
  after_eq : ∀ {es r t'}, s.Course ds f t es r t' → t.after es = t'
  visiting_eq : ∀ {es r t'}, s.Course ds f t es r t' → t'.visiting = t.visiting
  orderly : ∀ {es r t'}, s.Course ds f t es r t' → ∀ u ∈ t.stages es, u.Orderly
  enters_once : ∀ {es r t'}, s.Course ds f t es r t' → (t.visiting ++ entered es).Nodup
  length_looked_le : ∀ {es r t'}, s.Course ds f t es r t' → ∀ cells : List Cell,
    (∀ d, (body? (s.content d)).isSome → d ∈ cells) →
    (looked es).length ≤ ds.length + (cells.flatMap s.inputs).length

theorem disciplined (h : Reads ds f) (ht : t.Orderly) : s.Disciplined ds f t where
  terminates := exists_course h t
  result_eq := Course.result_eq
  after_eq := Course.after_eq
  visiting_eq := Course.visiting_eq
  orderly hcourse := hcourse.orderly ht
  enters_once hcourse :=
    ht.nodup.append hcourse.nodup_entered fun d hd hentered => (hcourse.fresh_of_entered d hentered).1 hd
  length_looked_le hcourse _ hcells := hcourse.length_looked_le_of_cells hcells

end Setting

/-- The trail that an evaluation in a cell or outside all cells starts with. -/
def Trail.start : Option Cell → Trail
  | some c => empty.enter c
  | none => empty

theorem Trail.orderly_start (c : Option Cell) : (start c).Orderly := by
  cases c with
  | none => exact ⟨List.nodup_nil, Nat.zero_le _⟩
  | some c =>
    have hlength : 1 ≤ maxDepth := by decide
    exact ⟨List.nodup_singleton c, hlength⟩

/-- What an evaluation comes to. -/
def Outcome.ofResult : Except Error Result → Outcome
  | .ok r => r.outcome
  | .error e => .error e

namespace Setting

theorem outcome_eq {w : Walk Result} {r : Except Error Result} (h : (w.result Trail.empty).1 = r) :
    outcome w = .ofResult r := by
  cases r with
  | ok r => exact outcome_of_ok h
  | error e => exact outcome_of_error h

variable {s : Setting}

theorem Course.evaluateAt_eq {c : Option Cell} {content body : Text} {es : List Event} {r : Except Error Result}
    {t' : Trail} (hbody : body? content = some body)
    (h : s.Course (s.references body) (fun value => s.formula value c body) (.start c) es r t') :
    s.evaluateAt c content = .ofResult r := by
  have hresult := h.result_eq
  rw [Setting.evaluateAt_eq, evaluateWith, hbody]
  refine outcome_eq ?_
  rw [cellValue_eq] at hresult
  cases c with
  | none => exact congrArg Prod.fst hresult
  | some c => exact congrArg Prod.fst hresult

variable (s)

/-- From an orderly trail, the evaluation of a cell, of an expression and of a formula is disciplined, and so is
every evaluation of a content that is a formula; it comes to what the course of its formula comes to. -/
theorem evaluation_disciplined :
    (∀ t : Trail, t.Orderly →
      (∀ c, s.Disciplined [c] (fun value => value c) t) ∧
      ∀ c body, s.Disciplined (s.references body) (fun value => s.expression value c body) t ∧
        s.Disciplined (s.references body) (fun value => s.formula value c body) t) ∧
    ∀ c content body, body? content = some body →
      s.Disciplined (s.references body) (fun value => s.formula value c body) (.start c) ∧
      ∀ es r t', s.Course (s.references body) (fun value => s.formula value c body) (.start c) es r t' →
        s.evaluateAt c content = .ofResult r := by
  refine ⟨fun t ht => ⟨fun c => ?_, fun c body => ⟨?_, ?_⟩⟩, fun c content body hbody => ⟨?_, ?_⟩⟩
  · exact disciplined (.value c) ht
  · exact disciplined (s.reads_expression c body) ht
  · exact disciplined (s.reads_formula c body) ht
  · exact disciplined (s.reads_formula c body) (Trail.orderly_start c)
  · exact fun es r t' h => h.evaluateAt_eq hbody

/-- Two formulas that share a reference. With the first of them on the trail, nothing is entered twice. -/
theorem evaluation_disciplined_shared :
    let s : Setting := { grid := ((Grid.empty 1 3).set ⟨0, 0⟩ "=1+1".toList).set ⟨0, 1⟩ "=A1+A1".toList }
    (∃ es r t', s.Course [⟨0, 1⟩] (fun value => value ⟨0, 1⟩) (.start (some ⟨0, 2⟩)) es r t' ∧
      t'.visiting = [⟨0, 2⟩] ∧ (⟨0, 2⟩ :: entered es).Nodup) ∧
    ∃ es r t', s.Course (s.references "B1+A1+B1".toList)
        (fun value => s.formula value (some ⟨0, 2⟩) "B1+A1+B1".toList) (.start (some ⟨0, 2⟩)) es r t' ∧
      s.evaluate ⟨0, 2⟩ "=B1+A1+B1".toList = .ofResult r ∧ (looked es).length ≤ 5 := by
  intro s
  obtain ⟨hwalk, htop⟩ := s.evaluation_disciplined
  refine ⟨?_, ?_⟩
  · have hcell := (hwalk _ (Trail.orderly_start (some ⟨0, 2⟩))).1 ⟨0, 1⟩
    obtain ⟨es, r, t', h⟩ := hcell.terminates
    exact ⟨es, r, t', h, hcell.visiting_eq h, hcell.enters_once h⟩
  · obtain ⟨hformula, houtcome⟩ := htop (some ⟨0, 2⟩) "=B1+A1+B1".toList "B1+A1+B1".toList rfl
    obtain ⟨es, r, t', h⟩ := hformula.terminates
    have hwf : s.grid.Wf := ((Grid.wf_empty 1 3).set _ _).set _ _
    have hlooked := hformula.length_looked_le h s.grid.cells fun d => mem_cells_of_body hwf
    have hreferences : (s.references "B1+A1+B1".toList).length + (s.grid.cells.flatMap s.inputs).length = 5 := by
      decide +kernel
    exact ⟨es, r, t', h, houtcome es r t' h, hreferences ▸ hlooked⟩

end Setting

end Spreadsheet.Formula
