import Mathlib.Data.List.Chain
import Spreadsheet.Proofs.Formula.Memory
import Spreadsheet.Proofs.Markup.Peeling

/-!
# Bad references

A reference is bad if it leads round a cycle or names no cell. A formula that comes to a result has looked at
all its tokens (`formula_checks`), and all that it refers to has values; so it leads to nothing bad, and a formula
that does comes to an error (`isError_of_bad`). The other way round, where chains of references are short, an
evaluation never meets the formulas on its trail again, and if all tokens name cells then nothing is left that
gives a reference error (`valueWith_checks`).
-/

namespace Spreadsheet.Formula

open Script (Value)
open Relation (ReflTransGen TransGen)

/-- A result comes only with `P`, and with `P` no error is about references. -/
def Checks {α : Type} (P : Prop) : Except Error α → Prop
  | .ok _ => P
  | .error e => P → e.kind ≠ .reference

namespace Checks

variable {α β : Type} {I : Trail → Prop} {P R : Prop} {w : Walk α}

theorem result (a : α) (h : P) : (pure a : Walk α).Gives I (Checks P) := .pure h

theorem failure {e : Error} (h : P → e.kind ≠ .reference) : (throw e : Walk α).Gives I (Checks P) := .throw h

theorem of_iff (h : P ↔ R) (hw : w.Gives I (Checks P)) : w.Gives I (Checks R) := propext h ▸ hw

theorem bind {k : α → Walk β} (hw : w.Gives I (Checks P)) (hk : ∀ a, (k a).Gives I (Checks R)) :
    (w >>= k).Gives I (Checks (P ∧ R)) := by
  refine Walk.Gives.bind hw (fun e he h => he h.1) fun a (ha : P) => (hk a).mono fun r hr => ?_
  cases r with
  | ok b => exact ⟨ha, hr⟩
  | error e => exact fun h => hr h.2

theorem map (hw : w.Gives I (Checks P)) (f : α → β) : (w >>= fun a => pure (f a)).Gives I (Checks P) :=
  of_iff (and_iff_left trivial) (bind hw fun a => result (f a) trivial)

theorem mapM {ι : Type} {Q : ι → Prop} {g : ι → Walk α} {xs : List ι}
    (h : ∀ x ∈ xs, (g x).Gives I (Checks (Q x))) : (xs.mapM g).Gives I (Checks (∀ x ∈ xs, Q x)) := by
  induction xs with
  | nil => exact result [] nofun
  | cons x xs ih =>
    rw [List.forall_mem_cons] at h
    rw [List.mapM_cons]
    exact of_iff List.forall_mem_cons.symm (bind h.1 fun a => map (ih h.2) (a :: ·))

end Checks

theorem script_kind (e : Script.Error) : (Error.script e).kind ≠ .reference := by
  cases e <;> nofun

namespace Setting

variable (s : Setting)

/-- The tokens of a span name cells of the grid. -/
def Locates : Span → Prop
  | .plain _ => True
  | .single token => (s.grid.locate? token).isSome
  | .range first _ last => (s.grid.locate? first).isSome ∧ (s.grid.locate? last).isSome

/-- Every token of a formula names a cell of the grid. -/
def InGrid (body : Text) : Prop := ∀ span ∈ mentions body, s.Locates span

/-- If the cell holds a formula, then every token of it names a cell of the grid. -/
def InGridAt (c : Cell) : Prop := ∀ body, body? (s.content c) = some body → s.InGrid body

variable {s}

/-! ### What a formula checks -/

section Checks

variable {I : Trail → Prop} {value : Cell → Walk Value} {c : Option Cell} {body : Text} {span : Span}

theorem substituteSpan_checks (h : ∀ d ∈ s.cells span, (value d).Gives I (Checks True)) :
    (s.substituteSpan value span).Gives I (Checks (s.Locates span)) := by
  cases span with
  | plain t => exact Checks.result t trivial
  | single token =>
    simp only [substituteSpan, locate, Locates, cells] at h ⊢
    cases hc : s.grid.locate? token with
    | none => exact Checks.failure fun h => by cases h
    | some c =>
      simp only [pure_bind]
      exact Checks.of_iff (by simp) (Checks.map (h c (by simp [hc])) _)
  | range first gap last =>
    simp only [substituteSpan, locate, Locates, cells] at h ⊢
    cases ha : s.grid.locate? first with
    | none => exact Checks.failure fun h => by cases h.1
    | some a =>
      cases hb : s.grid.locate? last with
      | none => exact Checks.failure fun h => by cases h.2
      | some b =>
        simp only [ha, hb] at h
        simp only [pure_bind]
        exact Checks.of_iff (by simp) (Checks.map (Checks.mapM h) _)

theorem inGrid_iff : s.InGrid body ↔ ∀ span ∈ spans body, s.Locates span := by
  simp only [InGrid, mentions, List.mem_filter]
  refine forall_congr' fun span => ⟨fun h hspan => ?_, fun h hspan => h hspan.1⟩
  cases span with
  | plain t => trivial
  | single token => exact h ⟨hspan, rfl⟩
  | range first gap last => exact h ⟨hspan, rfl⟩

theorem substitute_checks (h : ∀ d ∈ s.references body, (value d).Gives I (Checks True)) :
    (s.substitute value body).Gives I (Checks (s.InGrid body)) := by
  rw [← flatMap_cells] at h
  have hpiece : ∀ piece ∈ Text.pieces body,
      (s.substitutePiece value piece).Gives I (Checks (∀ span ∈ pieceSpans piece, s.Locates span)) := by
    intro piece hpiece
    cases piece with
    | quoted t => exact Checks.result t nofun
    | code t =>
      refine Checks.map (Checks.mapM fun span hspan => substituteSpan_checks fun d hd => h d ?_) _
      exact List.mem_flatMap.2 ⟨span, List.mem_flatMap.2 ⟨_, hpiece, hspan⟩, hd⟩
  have hall : (∀ piece ∈ Text.pieces body, ∀ span ∈ pieceSpans piece, s.Locates span) ↔ s.InGrid body := by
    rw [inGrid_iff, spans, List.forall_mem_flatMap]
  exact Checks.of_iff hall (Checks.map (Checks.mapM hpiece) _)

theorem expression_checks (h : ∀ d ∈ s.references body, (value d).Gives I (Checks True)) :
    (s.expression value c body).Gives I (Checks (s.InGrid body)) := by
  refine Checks.of_iff (and_iff_left trivial) (Checks.bind (substitute_checks h) fun t => ?_)
  dsimp only
  cases s.language.run (desugar c t) with
  | ok v => exact Checks.result v trivial
  | error e => exact Checks.failure fun _ => script_kind e

theorem request_checks {args : List Text} (h : ∀ d ∈ args.flatMap s.references, (value d).Gives I (Checks True)) :
    (s.request value c args).Gives I (Checks (∀ arg ∈ args, s.InGrid arg)) := by
  unfold request
  split
  · next prompt model =>
    cases s.generation with
    | none => exact Checks.failure nofun
    | some limit =>
      simp only [List.flatMap_cons, List.flatMap_nil, List.append_nil, List.forall_mem_append] at h
      have hboth : (∀ arg ∈ [prompt, model], s.InGrid arg) ↔ s.InGrid prompt ∧ s.InGrid model := by simp
      exact Checks.of_iff hboth.symm
        (Checks.bind (expression_checks h.1) fun p => Checks.map (expression_checks h.2) _)
  · exact Checks.failure nofun

/-- A formula that comes to a result has only tokens that name cells, and if that is so and no value that it asks
for gives a reference error, then neither does the formula. -/
theorem formula_checks (h : ∀ d ∈ s.references body, (value d).Gives I (Checks True)) :
    (s.formula value c body).Gives I (Checks (s.InGrid body)) := by
  unfold formula
  split
  · next args hargs =>
    have hall : (∀ arg ∈ args, s.InGrid arg) ↔ s.InGrid body := by
      rw [InGrid, mentions_of_generationArguments? hargs, List.forall_mem_flatMap]
      rfl
    rw [s.references_of_generationArguments? hargs] at h
    exact Checks.of_iff hall (Checks.map (request_checks h) Result.generate)
  · exact Checks.map (expression_checks h) Result.value

end Checks

/-! ### Formulas that lead to something bad -/

/-- The cell is on no cycle of references, and the tokens in it name cells of the grid. -/
def Good (s : Setting) (c : Cell) : Prop := ¬ TransGen s.Feeds c c ∧ s.InGridAt c

theorem inGrid_of_formulaIn {env : Cell → Value} {c : Option Cell} {body : Text} {r : Result}
    (h : s.formulaIn env c body = .ok r) : s.InGrid body := by
  have hchecks : (s.formula (fun d => pure (env d)) c body).Gives (fun _ => True) (Checks (s.InGrid body)) :=
    formula_checks fun d _ => Checks.result (env d) trivial
  have hresult := (hchecks Trail.empty trivial).1
  rw [formulaIn, resultIn] at h
  rwa [h] at hresult

theorem Denotes.inGridAt {c : Cell} {v : Value} (h : s.Denotes c v) : s.InGridAt c := by
  intro body hbody
  cases h with
  | text htext => simp [htext] at hbody
  | @formula _ body' env _ hbody' henv hv =>
    obtain rfl : body = body' := by simpa [hbody] using hbody'
    exact inGrid_of_formulaIn hv

theorem Denotes.feeds {c d : Cell} {v : Value} (h : s.Denotes c v) (hd : s.Feeds d c) : ∃ w, s.Denotes d w := by
  cases h with
  | text htext => exact absurd hd (not_feeds htext)
  | @formula _ body env _ hbody henv hv => exact ⟨env d, henv d (hd.mem hbody)⟩

/-- What a cell with a value leads to has a value. -/
theorem Denotes.reaches {c d : Cell} {v : Value} (h : s.Denotes c v) (hd : ReflTransGen s.Feeds d c) :
    ∃ w, s.Denotes d w := by
  induction hd using ReflTransGen.head_induction_on with
  | refl => exact ⟨v, h⟩
  | head hfeeds _ ih =>
    obtain ⟨w, hw⟩ := ih
    exact hw.feeds hfeeds

theorem Denotes.good {c : Cell} {v : Value} (h : s.Denotes c v) : s.Good c := ⟨h.acyclic, h.inGridAt⟩

/-- A content that comes to no error leads to nothing bad from its cell. -/
theorem Means.good {c d : Cell} {o : Outcome} (h : s.Means (some c) (s.content c) o)
    (hd : ReflTransGen s.Feeds d c) : s.Good d := by
  cases h with
  | text htext =>
    rcases ReflTransGen.cases_tail hd with rfl | ⟨e, -, he⟩
    · exact (Denotes.text htext).good
    · exact absurd he (not_feeds htext)
  | @formula body env r hbody henv hr =>
    have hdenotes : ∀ e, s.Feeds e c → s.Denotes e (env e) := fun e he => henv e (he.mem hbody)
    rcases ReflTransGen.cases_tail hd with rfl | ⟨e, hde, he⟩
    · have hacc : Acc s.Feeds c := ⟨_, fun e he => (hdenotes e he).acc⟩
      refine ⟨acyclic_of_acc hacc, fun body' hbody' => ?_⟩
      obtain rfl : body = body' := by simpa [hbody] using hbody'
      exact inGrid_of_formulaIn hr
    · obtain ⟨w, hw⟩ := (hdenotes e he).reaches hde
      exact hw.good

/-- A formula that leads to a cycle, or to a token that names no cell, comes to an error. -/
theorem isError_of_bad {c d : Cell} (hd : ReflTransGen s.Feeds d c) (hbad : ¬ s.Good d) :
    (s.evaluate c (s.content c)).isError = true := by
  by_contra h
  rw [evaluate_eq] at h
  exact hbad ((evaluateWith_means (Bool.eq_false_iff.2 h)).good hd)

/-! ### Short chains -/

/-- Formulas each of which refers to the next one. -/
def FormulaChain (s : Setting) (l : List Cell) : Prop :=
  l.IsChain (fun c d => s.Feeds d c) ∧ ∀ c ∈ l, (body? (s.content c)).isSome

theorem Shallow.acc {n : Nat} {c : Cell} (h : s.Shallow n c) : Acc s.Feeds c := by
  induction n generalizing c with
  | zero => exact ⟨_, fun d hd => absurd hd (not_feeds h)⟩
  | succ n ih => exact ⟨_, fun d hd => ih (h d hd)⟩

theorem FormulaChain.pairwise {l : List Cell} (h : s.FormulaChain l) :
    l.Pairwise fun c d => TransGen s.Feeds d c := by
  have : IsTrans Cell fun c d => TransGen s.Feeds d c := ⟨fun _ _ _ h h' => h'.trans h⟩
  exact (h.1.imp fun _ _ => TransGen.single).pairwise

theorem FormulaChain.nodup {c : Cell} {l : List Cell} (h : s.FormulaChain (c :: l))
    (hgood : ∀ d, ReflTransGen s.Feeds d c → ¬ TransGen s.Feeds d d) : (c :: l).Nodup := by
  have hpairs := h.pairwise
  have hmem : ∀ d ∈ c :: l, ReflTransGen s.Feeds d c :=
    List.forall_mem_cons.2 ⟨.refl, fun d hd => ((List.pairwise_cons.1 hpairs).1 d hd).to_reflTransGen⟩
  refine hpairs.imp_of_mem fun {d e} hd _ hed => ?_
  rintro rfl
  exact hgood d (hmem d hd) hed

/-- If the chains of formulas from a cell are bounded, then so are the formulas that an evaluation enters. -/
theorem shallow_of_chains {n : Nat} {c : Cell} (h : ∀ l, s.FormulaChain (c :: l) → (c :: l).length ≤ n) :
    s.Shallow n c := by
  induction n generalizing c with
  | zero =>
    rw [Shallow, ← Option.not_isSome_iff_eq_none]
    intro hsome
    have hlen := h [] ⟨.singleton c, by simpa using hsome⟩
    simp at hlen
  | succ n ih =>
    intro d hd
    refine ih fun l hl => ?_
    obtain ⟨body, hbody, -⟩ := id hd
    have hlen := h (d :: l) ⟨.cons_cons hd hl.1, List.forall_mem_cons.2 ⟨by simp [hbody], hl.2⟩⟩
    simpa using hlen

variable (s) in
/-- Nothing that the cell leads to gives a reference error while `depth` more formulas may be entered: the chains are
short, all tokens name cells, and no formula is met again that is being evaluated. -/
structure Safe (depth : Nat) (visiting : List Cell) (c : Cell) : Prop where
  shallow : s.Shallow depth c
  inGrid : ∀ d, ReflTransGen s.Feeds d c → s.InGridAt d
  clear : s.Clear visiting c

theorem Safe.feeds {depth : Nat} {visiting : List Cell} {c d : Cell} (h : s.Safe (depth + 1) visiting c)
    (hd : s.Feeds d c) : s.Safe depth (c :: visiting) d where
  shallow := h.shallow d hd
  inGrid e he := h.inGrid e (he.tail hd)
  clear := h.clear.cons hd (acyclic_of_acc h.shallow.acc)

theorem Checks.asValue {P : Prop} {r : Except Error Result} (hr : Checks P r) (h : P) : Checks True (asValue r) := by
  rcases r with e | v | g
  · exact fun _ => hr h
  · trivial
  · exact fun _ => nofun

theorem ownValue_checks {next : Option (Cell → Walk Value)} {depth : Nat} {visiting : List Cell} {c : Cell}
    (h : s.Safe depth visiting c) (hdepth : next = none → depth = 0)
    (hnext : ∀ value, next = some value → ∀ d, s.Feeds d c →
      (value d).Gives (fun t => t.visiting = c :: visiting) (Checks True)) :
    (s.ownValue next c).Gives (fun t => t.visiting = visiting) (Checks True) := by
  refine ownValue_gives (J := fun t => t.visiting = c :: visiting) (fun _ => trivial) (fun body hbody t ht hmem => ?_)
    (fun body hbody hnone => ?_) (fun body hbody value hvalue _ _ _ => ?_) (fun t ht _ => congrArg (c :: ·) ht)
    fun t ht => congrArg List.tail ht
  · exact absurd (ht ▸ hmem) (h.clear.not_mem hbody)
  · obtain rfl := hdepth hnone
    have htext : body? (s.content c) = none := h.shallow
    simp [htext] at hbody
  · have hrefs : ∀ d ∈ s.references body, s.Feeds d c := fun d hd => ⟨body, hbody, hd⟩
    have hformula := formula_checks (c := some c) fun d hd => hnext value hvalue d (hrefs d hd)
    exact hformula.mono fun r hr => Checks.asValue hr (h.inGrid c .refl body hbody)

/-- The walk to the value of a cell that leads to nothing bad gives no reference error. -/
theorem valueWith_checks {memo : Bool} {depth : Nat} {visiting : List Cell} {c : Cell} (h : s.Safe depth visiting c) :
    (s.valueWith memo depth c).Gives (fun t => t.visiting = visiting) (Checks True) := by
  have hremember {c : Cell} {visiting : List Cell} {w : Walk Value}
      (hw : w.Gives (fun t => t.visiting = visiting) (Checks True)) :
      (remember memo c w).Gives (fun t => t.visiting = visiting) (Checks True) :=
    remember_gives hw (fun _ _ _ _ => trivial) fun _ _ ht _ => ht
  -- each formula that is entered takes one from the depth and joins those that are being evaluated
  induction depth generalizing c visiting with
  | zero => exact hremember (ownValue_checks h (fun _ => rfl) nofun)
  | succ depth ih =>
    refine hremember (ownValue_checks h nofun fun value hvalue d hd => ?_)
    cases hvalue
    exact ih (h.feeds hd)

/-- A formula that leads to nothing bad, on chains that are short enough, comes to no reference error. -/
theorem Safe.kind_ne {c : Cell} {e : Error} (h : s.Safe maxDepth [] c)
    (he : s.evaluate c (s.content c) = .error e) : e.kind ≠ .reference := by
  rw [evaluate_eq, evaluateWith] at he
  split at he
  · cases he
  · next body hbody =>
    have hvalue : ∀ d ∈ s.references body,
        (s.valueWith true (maxDepth - 1) d).Gives (fun t => t.visiting = [c]) (Checks True) :=
      fun d hd => valueWith_checks (h.feeds ⟨body, hbody, hd⟩)
    have hchecks := (formula_checks (c := some c) hvalue (Trail.empty.enter c) rfl).1
    rcases hr : ((s.walk true (some c) body).result Trail.empty).1 with e' | r
    · rw [outcome_of_error hr] at he
      cases he
      rw [walk, Walk.result_within] at hr
      rw [hr] at hchecks
      exact hchecks (h.inGrid c .refl body hbody)
    · rw [outcome_of_ok hr] at he
      cases r <;> cases he

theorem name_ne_formula (w : Wrapper) (t : Text) : w.name ≠ '=' :: t := by
  intro h
  have hhead : w.name.head? ≠ some '=' :=
    (by decide : ∀ n ∈ Wrapper.names, n.head? ≠ some '=') w.name w.name_mem_names
  simp [h] at hhead

theorem peel?_formula (body : Text) : Markup.peel? ('=' :: body) = none := by
  rw [Option.eq_none_iff_forall_ne_some]
  rintro ⟨w, inner⟩ h
  obtain ⟨-, -, argument, -, heq⟩ := Markup.exists_of_peel? h
  cases hname : w.name with
  | nil => simp [hname] at heq
  | cons c t =>
    rw [hname] at heq
    obtain ⟨rfl, -⟩ := List.cons.inj heq
    exact name_ne_formula w t hname

theorem exists_of_body? {t : Text} (h : (body? t).isSome) : ∃ body, t = '=' :: body := by
  unfold body? at h
  split at h
  · exact ⟨_, rfl⟩
  · cases h

theorem content_of_formula {c : Cell} (h : (body? (s.grid.raw c)).isSome) : s.content c = s.grid.raw c := by
  obtain ⟨body, hraw⟩ := exists_of_body? h
  rw [content, hraw, Styled.parse, Markup.peelAll_of_peel?_eq_none (peel?_formula body)]

/-- A formula that leads to a cycle of references, or to a formula with a token that names no cell, comes to an error.
One that leads to no such thing and whose chains of formulas are short comes to no reference error. Evaluating a cell
as it is gives the same when its raw text is a formula. -/
theorem evaluate_checks_references (s : Setting) (c : Cell) :
    (∀ d, ReflTransGen s.Feeds d c → (TransGen s.Feeds d d ∨ ¬ s.InGridAt d) →
      (s.evaluate c (s.content c)).isError = true) ∧
    ((∀ d, ReflTransGen s.Feeds d c → ¬ TransGen s.Feeds d d ∧ s.InGridAt d) →
      (∀ l, s.FormulaChain (c :: l) → (c :: l).Nodup → (c :: l).length ≤ maxDepth) →
      ∀ e, s.evaluate c (s.content c) = .error e → e.kind ≠ .reference) ∧
    ((body? (s.grid.raw c)).isSome → s.evaluateCell c = s.evaluate c (s.content c)) := by
  refine ⟨fun d hd hbad => isError_of_bad hd ?_, fun hgood hchains e he => ?_, fun h => ?_⟩
  · rintro ⟨hacyclic, hinGrid⟩
    exact hbad.elim hacyclic fun h => h hinGrid
  · refine Safe.kind_ne ⟨shallow_of_chains fun l hl => ?_, fun d hd => (hgood d hd).2, nofun⟩ he
    exact hchains l hl (hl.nodup fun d hd => (hgood d hd).1)
  · rw [evaluateCell, content_of_formula h]

/-- A reference to a cell that refers to itself, and a malformed formula. -/
def loop : Grid where
  headers := (List.range 3).map Label.ofIndex
  rows := [["=B1".toList, "=B1".toList, "=1 +".toList]]

/-- What leads to a cycle is an error, and what is malformed is no reference error. -/
theorem evaluate_checks_references_loop :
    let s : Setting := { grid := loop }
    (s.evaluate ⟨0, 0⟩ (s.content ⟨0, 0⟩)).isError = true ∧
      ∃ e, s.evaluate ⟨0, 2⟩ (s.content ⟨0, 2⟩) = .error e ∧ e.kind ≠ .reference := by
  intro s
  have hfirst : s.Feeds ⟨0, 1⟩ ⟨0, 0⟩ := ⟨"B1".toList, by decide +kernel, by decide +kernel⟩
  have hself : s.Feeds ⟨0, 1⟩ ⟨0, 1⟩ := ⟨"B1".toList, by decide +kernel, by decide +kernel⟩
  refine ⟨(s.evaluate_checks_references ⟨0, 0⟩).1 ⟨0, 1⟩ (.single hfirst) (.inl (.single hself)), ?_⟩
  have hbody : body? (s.content ⟨0, 2⟩) = some "1 +".toList := by decide +kernel
  have hmentions : mentions "1 +".toList = [] := by decide +kernel
  have hlast : ∀ d, ¬ s.Feeds d ⟨0, 2⟩ := by
    intro d hd
    have hmem := hd.mem hbody
    rw [Setting.references, hmentions] at hmem
    cases hmem
  have herror : (s.evaluate ⟨0, 2⟩ (s.content ⟨0, 2⟩)).isError = true := by decide +kernel
  rcases he : s.evaluate ⟨0, 2⟩ (s.content ⟨0, 2⟩) with t | v | r | e
  · simp [he, Outcome.isError] at herror
  · simp [he, Outcome.isError] at herror
  · simp [he, Outcome.isError] at herror
  refine ⟨e, rfl, (s.evaluate_checks_references ⟨0, 2⟩).2.1 (fun d hd => ?_) (fun l hl _ => ?_) e he⟩
  · obtain rfl : d = ⟨0, 2⟩ := (ReflTransGen.cases_tail hd).elim Eq.symm fun ⟨x, _, hx⟩ => absurd hx (hlast x)
    refine ⟨fun h => ?_, fun body hbody' => ?_⟩
    · obtain ⟨x, -, hx⟩ := TransGen.tail'_iff.1 h
      exact hlast x hx
    · obtain rfl : "1 +".toList = body := Option.some.inj (hbody.symm.trans hbody')
      rw [InGrid, hmentions]
      nofun
  · cases l with
    | nil => decide
    | cons d l => exact absurd (List.isChain_cons_cons.1 hl.1).1 (hlast d)

end Setting

end Spreadsheet.Formula
