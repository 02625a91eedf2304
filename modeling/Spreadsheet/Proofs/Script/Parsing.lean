import Spreadsheet.Script.Parse
import Spreadsheet.Proofs.Formula.Literals
import Spreadsheet.Proofs.Formula.Promotion

/-!
# Parsing literals

The tokens of a literal are parsed into its expression if it fits into the levels that are left, and into nothing
otherwise (`run_expr`). With that, the script of a call with one literal is parsed (`parse?_call`).
-/

namespace Spreadsheet

namespace Digits

open Script

def float (negative : Bool) (d : Digits) : Float :=
  let x := (Decimal.ofParts d.whole (d.fraction.getD ['0']) 0).toFloat
  if negative then -x else x

theorem token_promote (negative : Bool) (d : Digits) :
    d.promote.token negative = .decimal negative (Decimal.ofParts d.whole (d.fraction.getD ['0']) 0) := by
  cases hfraction : d.fraction <;> simp [promote, token, hfraction]

end Digits

namespace Script

def Numeral.expr : Numeral → Expr
  | plain d => .literal (.float (d.float false))
  | negative d => .literal (.float (d.float true))
  | quotient neg d =>
    .binary .divide (.literal (.float (d.float neg))) (.literal (.float (Digits.zeroPoint.float false)))

/-- The levels that the expression of a number takes. -/
def Numeral.levels : Numeral → Nat
  | plain _ => 1
  | negative _ => 3
  | quotient _ _ => 4

namespace Written

mutual

/-- The expression of a literal. -/
def expr : Written → Expr
  | number n => n.expr
  | bool b => .literal (.bool b)
  | quoted t => .literal (.text t)
  | list items => .array (exprs items)

def exprs : List Written → List Expr
  | [] => []
  | w :: rest => w.expr :: exprs rest

end

mutual

/-- Whether the literal can be read while so many levels are left: a list takes three, if it has items. -/
def fits : Written → (levels : Nat) → Bool
  | number n, levels => n.levels ≤ levels
  | bool _, levels => 1 ≤ levels
  | quoted t, levels => 1 ≤ levels && textSize t ≤ maxTextSize
  | list items, levels => 2 ≤ levels && allFit items (levels - 3)

def allFit : List Written → (levels : Nat) → Bool
  | [], _ => true
  | w :: rest, levels => w.fits levels && allFit rest levels

end

variable {w : Written} {items : List Written} {levels : Nat}

theorem exprs_eq_map (items : List Written) : exprs items = items.map expr := by
  induction items with
  | nil => rfl
  | cons w rest ih => rw [exprs, ih, List.map_cons]

theorem allFit_eq_all (items : List Written) (levels : Nat) : allFit items levels = items.all (·.fits levels) := by
  induction items with
  | nil => rfl
  | cons w rest ih => rw [allFit, ih, List.all_cons]

theorem fits_zero (w : Written) : w.fits 0 = false := by
  cases w with
  | number n => cases n <;> rfl
  | _ => rfl

end Written

/-! ### Parsers step by step -/

namespace Parser

variable {s : Symbol} {ts : List Token}

@[simp]
theorem run_peek (ts : List Token) : peek.run ts = some (ts.head?, ts) := rfl

@[simp]
theorem run_skip (ts : List Token) : skip.run ts = some ((), ts.tail) := rfl

@[simp]
theorem run_takes (s : Symbol) (ts : List Token) : (takes s).run (.symbol s :: ts) = some (true, ts) := by simp [takes]

theorem run_takes_of_ne (h : ts.head? ≠ some (.symbol s)) : (takes s).run ts = some (false, ts) := by simp [takes, h]

@[simp]
theorem run_expect (s : Symbol) (ts : List Token) : (expect s).run (.symbol s :: ts) = some ((), ts) := by simp [expect]

end Parser

namespace Token

/-- A literal or the call of a function may begin with the token. -/
def leads : Token → Bool
  | decimal .. | text _ | name _ | keyword .yes | keyword .no | symbol .openRound | symbol .openSquare => true
  | _ => false

end Token

/-- No step follows. -/
def NoStep (ts : List Token) : Prop :=
  ts.head? ≠ some (.symbol .openSquare) ∧ ts.head? ≠ some (.symbol .dot)

/-- No operator follows. -/
def NoOperator (ts : List Token) : Prop := ∀ op, ts.head? ≠ some (.symbol (.operator op))

/-- What follows does not go on with an expression. -/
structure Ends (ts : List Token) : Prop where
  step : NoStep ts
  operator : NoOperator ts

theorem ends_nil : Ends [] := ⟨⟨nofun, nofun⟩, nofun⟩

theorem ends_symbol {s : Symbol} (hs : s = .comma ∨ s = .closeRound ∨ s = .closeSquare) (ts : List Token) :
    Ends (.symbol s :: ts) := by
  rcases hs with rfl | rfl | rfl
  all_goals exact ⟨⟨nofun, nofun⟩, nofun⟩

open Spreadsheet.Script.Parser

namespace Grammar

variable {g : Grammar} {k : Token} {ts rest : List Token} {e : Expr}

theorem atom_text (g : Grammar) (t : Text) : atom g (.text t) = do return .literal (← textLiteral t) := rfl

theorem atom_name (g : Grammar) (n : Text) : atom g (.name n) = do
    match ← arguments? g.expr with
    | some args => return .call n args
    | none => return .name n := rfl

theorem atom_openRound (g : Grammar) : atom g (.symbol .openRound) = do
    let e ← g.expr
    expect .closeRound
    return e := rfl

theorem atom_openSquare (g : Grammar) : atom g (.symbol .openSquare) = do
    g.enter
    return .array (← commaList g.item .closeSquare) := rfl

theorem run_steps (h : NoStep ts) (root : Option Expr) : (steps g root).run ts = some ([], ts) := by
  simp [steps, stepsOf, run_takes_of_ne h.1, run_takes_of_ne h.2]

theorem run_tighter? (h : NoOperator ts) (least : Nat) : (tighter? least).run ts = some (none, ts) := by
  unfold tighter?
  simp only [StateT.run_bind, run_peek, Option.bind_eq_bind, Option.bind_some]
  split
  · next op heq => exact absurd heq (h op)
  · rfl

theorem run_chainOf (h : NoOperator ts) (room least : Nat) (l : Expr) :
    (chainOf g (room + 1) least l).run ts = some (l, ts) := by
  simp [chainOf, run_tighter? h]

/-- An operand without signs is read by its first token, unless steps follow. -/
theorem run_operandOf (hk : k.leads = true) (h : ∀ p ∈ (atom g k).run ts, NoStep p.2) :
    (operandOf g).run (k :: ts) = (atom g k).run ts := by
  have hprimary : (primary g).run (k :: ts) = (atom g k).run ts := by
    have hbind : (primary g).run (k :: ts) = ((atom g k).run ts).bind fun p =>
        ((steps g (some p.1)).run p.2).map fun q => (if q.1 = [] then p.1 else .access p.1 q.1, q.2) := by
      unfold primary
      unfold Token.leads at hk
      split at hk
      all_goals simp at hk ⊢
    rw [hbind]
    rcases hatom : (atom g k).run ts with _ | ⟨e, rest⟩
    · rfl
    · have hstep : NoStep rest := h (e, rest) hatom
      simp [run_steps hstep]
  rw [← hprimary]
  unfold operandOf
  unfold Token.leads at hk
  split at hk
  all_goals simp at hk ⊢

/-- An expression without operators is read by its first token, too. -/
theorem run_exprOf {fit : Bool} (hk : k.leads = true) (hrest : Ends rest)
    (h : (atom g k).run ts = if fit then some (e, rest) else none) :
    (exprOf g.around).run (k :: ts) = if fit then some (e, rest) else none := by
  have hstep : ∀ p ∈ (atom g k).run ts, NoStep p.2 := by
    intro p hp
    rw [h] at hp
    cases fit
    · cases hp
    · cases hp
      exact hrest.step
  have hchain : (g.around.chain 1 e).run rest = some (e, rest) := by
    simp [around, run_chainOf hrest.operator]
  have hoperand : (g.around.operand).run (k :: ts) = (atom g k).run ts := run_operandOf hk hstep
  rw [exprOf, StateT.run_bind, hoperand, h]
  cases fit
  · rfl
  · exact hchain

theorem run_exprOf_of_atom (hk : k.leads = true) (hrest : Ends rest) (h : (atom g k).run ts = some (e, rest)) :
    (exprOf g.around).run (k :: ts) = some (e, rest) := by
  have hfit : (atom g k).run ts = if true then some (e, rest) else none := h
  exact run_exprOf hk hrest hfit

end Grammar

/-- The parsers inside those of a level. -/
def inside : Nat → Grammar
  | 0 => .closed
  | levels + 1 => grammar levels

theorem grammar_eq (levels : Nat) : grammar levels = (inside levels).around := by
  cases levels <;> rfl

theorem expr_grammar_succ (levels : Nat) : (grammar (levels + 1)).expr = Grammar.exprOf (inside levels).around := by
  rw [← grammar_eq]
  rfl

/-! ### Literals -/

theorem tokens_promote_list (items : List Written) : (Written.list items).promote.tokens =
    .symbol .openSquare :: Written.itemTokens (items.map Written.promote) ++ [.symbol .closeSquare] := by
  rw [Written.promote, Written.map, Written.mapItems_eq_map, Written.tokens]
  rfl

theorem Numeral.exists_leads (n : Numeral) : ∃ k ks, (n.map Digits.promote).tokens = k :: ks ∧ k.leads = true := by
  cases n with
  | plain d => exact ⟨_, _, rfl, by rw [d.token_promote]; rfl⟩
  | negative d => exact ⟨_, _, rfl, rfl⟩
  | quotient neg d => exact ⟨_, _, rfl, rfl⟩

namespace Written

theorem exists_leads (w : Written) : ∃ k ks, w.promote.tokens = k :: ks ∧ k.leads = true := by
  cases w with
  | number n => exact n.exists_leads
  | bool b => exact ⟨_, _, rfl, by cases b <;> rfl⟩
  | quoted t => exact ⟨_, _, rfl, rfl⟩
  | list items => exact ⟨_, _, rfl, rfl⟩

theorem head?_tokens {s : Symbol} (hs : s = .closeRound ∨ s = .closeSquare) (w : Written) (ts : List Token) :
    (w.promote.tokens ++ ts).head? ≠ some (.symbol s) := by
  obtain ⟨k, ks, htokens, hk⟩ := w.exists_leads
  rw [htokens]
  intro h
  obtain rfl := Option.some.inj h
  rcases hs with rfl | rfl <;> cases hk

theorem length_le_itemTokens (items : List Written) : items.length ≤ (itemTokens (items.map promote)).length := by
  induction items with
  | nil => rfl
  | cons w rest ih =>
    obtain ⟨k, ks, htokens, -⟩ := w.exists_leads
    cases rest with
    | nil => simp [itemTokens, htokens]
    | cons v rest =>
      rw [List.map_cons] at ih
      rw [List.map_cons, List.map_cons, itemTokens_cons_cons, htokens]
      simp only [List.length_append, List.length_cons] at ih ⊢
      omega

end Written

/-- Literals with commas between them are read one by one, if all of them fit. -/
theorem run_list {item : Parser Expr} {fit : Written → Bool} {close : Symbol}
    (hclose : close = .closeRound ∨ close = .closeSquare) {items : List Written} (hitem : ∀ w ∈ items, ∀ ts, Ends ts →
      item.run (w.promote.tokens ++ ts) = if fit w then some (w.expr, ts) else none)
    {room : Nat} (hroom : items.length < room) (ts : List Token) :
    (list item close room).run (Written.itemTokens (items.map Written.promote) ++ .symbol close :: ts) =
      if items.all fit then some (items.map Written.expr, ts) else none := by
  obtain ⟨room, rfl⟩ : ∃ n, room = n + 1 := ⟨room - 1, by omega⟩
  induction items generalizing room with
  | nil => simp [list, Written.itemTokens]
  | cons w items ih =>
    rw [List.forall_mem_cons] at hitem
    cases items with
    | nil =>
      have hend : Ends (.symbol close :: ts) := by
        rcases hclose with rfl | rfl
        · exact ends_symbol (.inr (.inl rfl)) ts
        · exact ends_symbol (.inr (.inr rfl)) ts
      have hcomma : (takes .comma).run (.symbol close :: ts) = some (false, .symbol close :: ts) := by
        refine run_takes_of_ne fun h => ?_
        rcases hclose with rfl | rfl <;> cases h
      have htakes := run_takes_of_ne (w.head?_tokens hclose (.symbol close :: ts))
      simp only [list, Written.itemTokens, List.map_cons, List.map_nil, StateT.run_bind, htakes, Option.bind_eq_bind,
        Option.bind_some, Bool.false_eq_true, if_false, hitem.1 _ hend]
      cases hfit : fit w <;> simp [hcomma, hfit]
    | cons v items =>
      have htokens : Written.itemTokens ((w :: v :: items).map Written.promote) ++ .symbol close :: ts =
          w.promote.tokens ++ .symbol .comma ::
            (Written.itemTokens ((v :: items).map Written.promote) ++ .symbol close :: ts) := by
        rw [List.map_cons, List.map_cons, Written.itemTokens_cons_cons, List.append_assoc, List.cons_append]
      have htakes := run_takes_of_ne (w.head?_tokens hclose (.symbol .comma ::
        (Written.itemTokens ((v :: items).map Written.promote) ++ .symbol close :: ts)))
      obtain ⟨room, rfl⟩ : ∃ n, room = n + 1 := ⟨room - 1, by simp only [List.length_cons] at hroom; omega⟩
      have hrest := ih hitem.2 room (by simp only [List.length_cons] at hroom ⊢; omega)
      rw [htokens, list]
      simp only [StateT.run_bind, htakes, Option.bind_eq_bind, Option.bind_some, Bool.false_eq_true, if_false,
        hitem.1 _ (ends_symbol (.inl rfl) _)]
      cases hfit : fit w
      · simp [hfit]
      · simp only [if_true, Option.bind_some, StateT.run_bind, run_takes, Option.bind_eq_bind, hrest]
        cases hall : (v :: items).all fit <;> simp [hfit, hall]

theorem run_commaList {item : Parser Expr} {fit : Written → Bool} {close : Symbol}
    (hclose : close = .closeRound ∨ close = .closeSquare) {items : List Written}
    (hitem : ∀ w ∈ items, ∀ ts, Ends ts → item.run (w.promote.tokens ++ ts) = if fit w then some (w.expr, ts) else none)
    (ts : List Token) :
    (commaList item close).run (Written.itemTokens (items.map Written.promote) ++ .symbol close :: ts) =
      if items.all fit then some (items.map Written.expr, ts) else none := by
  have hroom : items.length < (Written.itemTokens (items.map Written.promote) ++ .symbol close :: ts).length + 1 := by
    have := Written.length_le_itemTokens items
    rw [List.length_append]
    omega
  exact run_list hclose hitem hroom ts

variable {ts : List Token}

theorem run_decimal (levels : Nat) (negative : Bool) (d : Digits) (hts : Ends ts) :
    (grammar levels).expr.run (d.promote.token negative :: ts) =
      if 1 ≤ levels then some (.literal (.float (d.float negative)), ts) else none := by
  cases levels with
  | zero => rfl
  | succ levels =>
    rw [expr_grammar_succ, d.token_promote]
    exact Grammar.run_exprOf_of_atom rfl hts rfl

theorem run_round {least : Nat} {e : Expr} {us : List Token}
    (h : ∀ levels, (grammar levels).expr.run us = if least ≤ levels then some (e, .symbol .closeRound :: ts) else none)
    (levels : Nat) (hts : Ends ts) :
    (grammar levels).expr.run (.symbol .openRound :: us) = if least + 2 ≤ levels then some (e, ts) else none := by
  cases levels with
  | zero => rfl
  | succ levels =>
    have hinside : (inside levels).expr.run us =
        if least < levels then some (e, .symbol .closeRound :: ts) else none := by
      cases levels with
      | zero => rfl
      | succ levels =>
        show (grammar levels).expr.run us = _
        simp only [h, Nat.lt_succ_iff]
    have hatom : (Grammar.atom (inside levels) (.symbol .openRound)).run us =
        if decide (least < levels) then some (e, ts) else none := by
      simp only [Grammar.atom_openRound, StateT.run_bind, hinside, Option.bind_eq_bind]
      by_cases hlevels : least < levels <;> simp [hlevels]
    rw [expr_grammar_succ, Grammar.run_exprOf rfl hts hatom]
    simp [Nat.succ_le_iff]

theorem run_operandOf_decimal (g : Grammar) (negative : Bool) (d : Digits) (hts : NoStep ts) :
    (Grammar.operandOf g).run (d.promote.token negative :: ts) = some (.literal (.float (d.float negative)), ts) := by
  rw [d.token_promote]
  refine Grammar.run_operandOf rfl fun p hp => ?_
  obtain rfl := Option.some.inj hp
  exact hts

theorem run_quotient (levels : Nat) (negative : Bool) (d : Digits) (hts : Ends ts) :
    (grammar levels).expr.run
        (d.promote.token negative :: .symbol (.operator .divide) :: Digits.zeroPoint.promote.token false :: ts) =
      if 2 ≤ levels then some ((Numeral.quotient negative d).expr, ts) else none := by
  cases levels with
  | zero => rfl
  | succ levels =>
    have hdivide (ts : List Token) : NoStep (.symbol (.operator .divide) :: ts) := ⟨nofun, nofun⟩
    have htighter (ts : List Token) : (Grammar.tighter? 1).run (.symbol (.operator .divide) :: ts) =
        some (some .divide, .symbol (.operator .divide) :: ts) := rfl
    have hchain (e : Expr) : ((inside levels).chain 1 e).run ts = if 1 ≤ levels then some (e, ts) else none := by
      cases levels with
      | zero => rfl
      | succ levels =>
        rw [inside, grammar_eq]
        simp [Grammar.around, Grammar.run_chainOf hts.operator]
    have hfirst : ((inside levels).around.operand).run (d.promote.token negative :: .symbol (.operator .divide) ::
        Digits.zeroPoint.promote.token false :: ts) = _ := run_operandOf_decimal _ negative d (hdivide _)
    rw [expr_grammar_succ, Grammar.exprOf, StateT.run_bind, hfirst]
    simp [Grammar.around, Grammar.chainOf, htighter, run_operandOf_decimal _ false _ hts.step,
      Grammar.run_tighter? hts.operator, combine, hchain, Numeral.expr]

theorem run_numeral (levels : Nat) (n : Numeral) (hts : Ends ts) :
    (grammar levels).expr.run ((n.map Digits.promote).tokens ++ ts) =
      if n.levels ≤ levels then some (n.expr, ts) else none := by
  have hclose : Ends (.symbol .closeRound :: ts) := ends_symbol (.inr (.inl rfl)) ts
  cases n with
  | plain d => exact run_decimal levels false d hts
  | negative d =>
    have hinside (levels : Nat) := run_decimal levels true d hclose
    exact run_round hinside levels hts
  | quotient neg d =>
    have hinside (levels : Nat) := run_quotient levels neg d hclose
    exact run_round hinside levels hts

theorem run_inside {w : Written} (h : ∀ levels, Ends ts →
      (grammar levels).expr.run (w.promote.tokens ++ ts) = if w.fits levels then some (w.expr, ts) else none)
    (levels : Nat) (hts : Ends ts) :
    (inside levels).expr.run (w.promote.tokens ++ ts) = if w.fits (levels - 1) then some (w.expr, ts) else none := by
  cases levels with
  | zero =>
    rw [w.fits_zero]
    rfl
  | succ levels => exact h levels hts

/-- A literal is read if it fits into the levels, and nothing is read otherwise. -/
theorem run_expr (w : Written) (levels : Nat) (hts : Ends ts) :
    (grammar levels).expr.run (w.promote.tokens ++ ts) = if w.fits levels then some (w.expr, ts) else none := by
  induction w generalizing levels ts with
  | number n =>
    have h := run_numeral levels n hts
    simpa [Written.fits, Written.promote, Written.map, Written.tokens, Written.expr] using h
  | bool b =>
    cases levels with
    | zero => rfl
    | succ levels =>
      rw [expr_grammar_succ]
      cases b
      · exact Grammar.run_exprOf_of_atom rfl hts rfl
      · exact Grammar.run_exprOf_of_atom rfl hts rfl
  | quoted t =>
    cases levels with
    | zero => rfl
    | succ levels =>
      rw [expr_grammar_succ]
      refine Grammar.run_exprOf rfl hts ?_
      by_cases ht : textSize t ≤ maxTextSize
      · simp [Grammar.atom_text, textLiteral, Written.fits, ht, Written.expr]
      · simp [Grammar.atom_text, textLiteral, Written.fits, ht]
  | list items ih =>
    rcases levels with _ | _ | levels
    · rfl
    · rw [expr_grammar_succ]
      refine Grammar.run_exprOf rfl hts ?_
      rfl
    · rw [expr_grammar_succ]
      have hlist := run_commaList (.inr rfl) (fun w hw ts => run_inside (fun levels => ih w hw levels) levels) ts
      have hatom : (Grammar.atom (inside (levels + 1)) (.symbol .openSquare)).run
          (Written.itemTokens (items.map Written.promote) ++ .symbol .closeSquare :: ts) =
            if items.all (·.fits (levels - 1)) then some (.array (items.map Written.expr), ts) else none := by
        rw [inside, grammar_eq]
        simp only [Grammar.atom_openSquare, Grammar.around, StateT.run_bind, StateT.run_pure, Option.pure_def,
          Option.bind_eq_bind, Option.bind_some, hlist]
        cases items.all (·.fits (levels - 1)) <;> simp
      have htokens : (Written.list items).promote.tokens ++ ts =
          .symbol .openSquare :: (Written.itemTokens (items.map Written.promote) ++ .symbol .closeSquare :: ts) := by
        simp [tokens_promote_list]
      rw [htokens, Grammar.run_exprOf rfl hts hatom]
      simp [Written.fits, Written.allFit_eq_all, Written.expr, Written.exprs_eq_map]

/-! ### Calls -/

theorem run_call (f : Text) (w : Written) (levels : Nat) (hts : Ends ts) :
    (grammar (levels + 1)).expr.run (.name f :: .symbol .openRound :: (w.promote.tokens ++ .symbol .closeRound :: ts)) =
      if w.fits (levels - 1) then some (.call f [w.expr], ts) else none := by
  have hitem : ∀ v ∈ [w], ∀ ts, Ends ts →
      (inside levels).expr.run (v.promote.tokens ++ ts) = if v.fits (levels - 1) then some (v.expr, ts) else none :=
    fun v _ ts hts => run_inside (fun levels hts => run_expr v levels hts) levels hts
  have hlist := run_commaList (.inl rfl) hitem ts
  simp only [List.map_cons, List.map_nil, Written.itemTokens, List.all_cons, List.all_nil, Bool.and_true] at hlist
  have hempty (us : List Token) : (takes .emptyRound).run (.symbol .openRound :: us) =
      some (false, .symbol .openRound :: us) := run_takes_of_ne (by simp)
  rw [expr_grammar_succ]
  refine Grammar.run_exprOf rfl hts ?_
  simp only [Grammar.atom_name, arguments?, StateT.run_bind, hempty, Option.bind_eq_bind, Option.bind_some,
    Bool.false_eq_true, if_false, run_takes, if_true, hlist]
  cases w.fits (levels - 1) <;> simp

theorem run_statement (f : Text) (w : Written) (levels : Nat) :
    (grammar (levels + 2)).statement.run
        (.name f :: .symbol .openRound :: (w.promote.tokens ++ [.symbol .closeRound])) =
      if w.fits (levels - 1) then some (.value (.call f [w.expr]), []) else none := by
  show (Grammar.statementOf (grammar (levels + 1))).run _ = _
  simp only [Grammar.statementOf, Grammar.assignmentOf, StateT.run_bind, run_peek, List.head?_cons, Option.bind_eq_bind,
    Option.bind_some, run_call f w levels ends_nil]
  cases w.fits (levels - 1) <;> simp

/-- The script of a call with one literal is one statement, if the literal fits. -/
theorem parse?_call {script f : Text} {w : Written} (h : lex script =
      some (.name f :: .symbol .openRound :: (w.promote.tokens ++ [.symbol .closeRound]))) :
    parse? script = if w.fits (maxLevels - 3) then some [.value (.call f [w.expr])] else none := by
  have hstatement := run_statement f w 62
  have hstatements (room : Nat) : (statements (grammar 64).statement (room + 2)).run (.name f :: .symbol .openRound ::
      (w.promote.tokens ++ [.symbol .closeRound])) =
        if w.fits 61 then some ([.value (.call f [w.expr])], []) else none := by
    simp only [statements, StateT.run_bind, run_peek, List.head?_cons, Option.bind_eq_bind, Option.bind_some,
      hstatement]
    cases w.fits 61 <;> simp
  rw [parse?, h]
  simp only [maxLevels, List.length_cons, Option.bind_eq_bind, Option.bind_some, hstatements]
  by_cases hfit : w.fits 61 = true <;> simp [hfit]

end Script

end Spreadsheet
