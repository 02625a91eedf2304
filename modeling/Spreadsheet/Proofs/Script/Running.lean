import Spreadsheet.Script.Language
import Spreadsheet.Proofs.Formula.Kinds
import Spreadsheet.Proofs.Script.Lexer
import Spreadsheet.Proofs.Script.Parsing

/-!
# Running a call with a literal

`Language.Calls` is what formulas count on when a script calls a function of any number of values: the function gets the
value of the list. The language of the scripts here keeps it (`language_calls`). Evaluation takes one operation for each
part of a literal (`takes_plain`), so the script of a call with a list comes to what the function gives for its value,
unless the list is nested too deeply or has too many parts (`run_call_list`). The functions of any number of values look
at the parts of their value only (`Function.gather_congr`).
-/

namespace Spreadsheet.Script

def Numeral.value : Numeral → Float
  | plain d => d.float false
  | negative d => d.float true
  | quotient neg d => d.float neg / Digits.zeroPoint.float false

namespace Written

mutual

/-- The value that a script finds for a literal. -/
def value : Written → Value
  | number n => .float n.value
  | bool b => .bool b
  | quoted t => .text t
  | list items => .array (values items)

def values : List Written → List Value
  | [] => []
  | w :: rest => w.value :: values rest

end

theorem values_eq_map (items : List Written) : values items = items.map value := by
  induction items with
  | nil => rfl
  | cons w rest ih => rw [values, ih, List.map_cons]

mutual

/-- The expression of a literal when quotients have been worked out. -/
def plain : Written → Expr
  | number n => .literal (.float n.value)
  | bool b => .literal (.bool b)
  | quoted t => .literal (.text t)
  | list items => .array (plains items)

def plains : List Written → List Expr
  | [] => []
  | w :: rest => w.plain :: plains rest

end

mutual

/-- The operations that a literal takes. -/
def cost : Written → Nat
  | list items => 1 + costs items
  | _ => 1

def costs : List Written → Nat
  | [] => 0
  | w :: rest => w.cost + costs rest

end

variable {items : List Written}

theorem simplifyItems_exprs (h : ∀ w ∈ items, w.expr.simplify = w.plain) :
    simplifyItems (exprs items) = plains items := by
  induction items with
  | nil => rfl
  | cons w rest ih =>
    rw [List.forall_mem_cons] at h
    rw [exprs, simplifyItems, plains, h.1, ih h.2]

theorem simplify_expr (w : Written) : w.expr.simplify = w.plain := by
  induction w with
  | number n =>
    cases n with
    | plain d => rfl
    | negative d => rfl
    | quotient neg d => rfl
  | bool b => rfl
  | quoted t => rfl
  | list items ih => rw [expr, Expr.simplify, simplifyItems_exprs ih, plain]

end Written

/-! ### Evaluation -/

/-- Comes to `a` by `n` operations if so many are left, and runs out of them otherwise. -/
def Takes {α : Type} (p : Run α) (n : Nat) (a : α) : Prop :=
  ∀ scope left draws,
    p.run ⟨scope, left, draws⟩ = if n ≤ left then .ok (a, ⟨scope, left - n, draws⟩) else .error .endless

namespace Takes

variable {α β : Type} {p : Run α} {n m : Nat} {a : α} {b : β}

theorem pure (a : α) : Takes (pure a) 0 a := fun _ _ _ => rfl

theorem tick : Takes Run.tick 1 () := by
  intro scope left draws
  cases left <;> rfl

theorem bind {k : α → Run β} (hp : Takes p n a) (hk : Takes (k a) m b) : Takes (p >>= k) (n + m) b := by
  intro scope left draws
  rw [StateT.run_bind, hp]
  by_cases hn : n ≤ left
  · rw [if_pos hn]
    show (k a).run ⟨scope, left - n, draws⟩ = _
    rw [hk, Nat.sub_sub]
    by_cases hm : m ≤ left - n
    · rw [if_pos hm, if_pos (by omega)]
    · rw [if_neg hm, if_neg (by omega)]
  · rw [if_neg hn, if_neg (by omega)]
    rfl

theorem map (hp : Takes p n a) (f : α → β) : Takes (do return f (← p)) n (f a) := by
  have h : Takes (p >>= fun a => Pure.pure (f a)) (n + 0) (f a) := hp.bind (.pure (f a))
  exact h

/-- What follows the operations leaves the machine as it is. -/
theorem run'_bind {k : α → Run β} {r : Except Error β} (hp : Takes p n a)
    (hk : ∀ m, (k a).run m = r.map fun b => (b, m)) (m : Machine) :
    (p >>= k).run' m = if n ≤ m.left then r else .error .endless := by
  rw [StateT.run'_eq, StateT.run_bind, hp]
  by_cases hn : n ≤ m.left
  · rw [if_pos hn, if_pos hn]
    show Prod.fst <$> (k a).run ⟨m.scope, m.left - n, m.draws⟩ = r
    rw [hk]
    cases r <;> rfl
  · rw [if_neg hn, if_neg hn]
    rfl

end Takes

theorem takes_literal (v : Value) : Takes (Expr.literal v).eval 1 v := by
  rw [Expr.eval]
  exact Takes.tick.map fun _ => v

theorem takes_items {items : List Written} (h : ∀ w ∈ items, Takes w.plain.eval w.cost w.value) :
    Takes (evalItems (Written.plains items)) (Written.costs items) (Written.values items) := by
  induction items with
  | nil => exact .pure []
  | cons w rest ih =>
    rw [List.forall_mem_cons] at h
    rw [Written.plains, evalItems, Written.costs, Written.values]
    exact h.1.bind ((ih h.2).map _)

/-- A literal takes one operation for each of its parts. -/
theorem takes_plain (w : Written) : Takes w.plain.eval w.cost w.value := by
  induction w with
  | number n => exact takes_literal _
  | bool b => exact takes_literal _
  | quoted t => exact takes_literal _
  | list items ih =>
    rw [Written.plain, Expr.eval, Written.cost, Written.value]
    exact Takes.tick.bind ((takes_items ih).map Value.array)

/-! ### Calls -/

theorem tidy_singleton {s : Statement} (h : s.hasValue = true) : tidy true false [s] = [s] := by
  have honce : tidyOnce true false [s] = [s] := by simp [tidyOnce, dropPure, dropLast, h]
  rw [tidy, List.foldl_cons, List.foldl_nil, honce, honce]

theorem simplify_call (f : Text) (w : Written) :
    simplify [.value (.call f [w.expr])] = [.value (.call f [w.plain])] := by
  have htidy : tidy true false [.value (.call f [w.plain])] = [.value (.call f [w.plain])] := tidy_singleton rfl
  rw [simplify, simplifyBody, simplifyBody, Statement.simplify, Expr.simplify, simplifyItems, simplifyItems,
    w.simplify_expr]
  · exact htidy
  · nofun

section Gathering

variable {f : Function} {g : Value → Except Error Value} (hg : f.gather? = some g)
include hg

/-- A function of any number of values is called with one value, and draws no number. -/
theorem run_call_gather (v : Value) (m : Machine) : (Run.call f.name [v]).run m = (g v).map fun r => (r, m) := by
  have hne : f ≠ .random := by
    rintro rfl
    cases hg
  have hcall : Script.call (m.draws 0) f.name [v] = g v := by
    rw [Script.call, f.ofName?_name]
    simp [Function.apply, hg]
  have hrun : (Run.call f.name [v]).run m = (StateT.lift (Script.call (m.draws 0) f.name [v]) : Run Value).run m := by
    rw [Run.call, f.ofName?_name]
    simp [hne]
  rw [hrun, hcall]
  cases g v <;> rfl

theorem run_call_list {script : Text} {items : List Written} (draws : Nat → Float) (h : lex script =
      some (.name f.name :: .symbol .openRound :: ((Written.list items).promote.tokens ++ [.symbol .closeRound]))) :
    run script draws =
      if (Written.list items).fits (maxLevels - 3) then
        if (Written.list items).cost + 3 ≤ maxOperations then g (Written.list items).value else .error .endless
      else .error .malformed := by
  rw [run, parse?_call h]
  by_cases hfits : (Written.list items).fits (maxLevels - 3) = true
  · rw [if_pos hfits, if_pos hfits]
    have hitems := takes_items fun w (_ : w ∈ [Written.list items]) => takes_plain w
    have hread : Takes (do Run.tick; Run.tick; Run.tick; evalItems (Written.plains [.list items]))
        (1 + (1 + (1 + Written.costs [.list items]))) (Written.values [.list items]) :=
      Takes.tick.bind (Takes.tick.bind (Takes.tick.bind hitems))
    dsimp only
    rw [simplify_call, evalBody, Statement.eval, Written.plain, Expr.eval]
    · have hrun := hread.run'_bind (run_call_gather hg _) ⟨[], maxOperations, draws⟩
      have hcost : 1 + (1 + (1 + Written.costs [.list items])) = (Written.list items).cost + 3 := by
        rw [Written.costs, Written.costs]
        omega
      rw [hcost, bind_assoc, bind_assoc, bind_assoc] at hrun
      exact hrun
    · nofun
  · rw [if_neg hfits, if_neg hfits]

/-- The functions of any number of values look at the parts of their value only. -/
theorem Function.gather_congr {v v' : Value} (h : v.parts = v'.parts) : g v = g v' := by
  have hnumbers : v.numbers? = v'.numbers? := by rw [Value.numbers?, Value.numbers?, h]
  cases f with
  | sum | mean | min | max | count =>
    obtain rfl := Option.some.inj hg
    simp [hnumbers, h]
  | _ => cases hg

theorem Function.isVariadic_of_gather : f.isVariadic = true := by
  cases f with
  | sum | mean | min | max | count => rfl
  | _ => cases hg

theorem word?_name : Token.word? f.name = some (.name f.name) := by
  cases f with
  | sum | mean | min | max | count => decide
  | _ => cases hg

theorem lex_call (items : List Written) : lex (f.name ++ '(' :: (Written.list items).promote.text ++ [')']) =
    some (.name f.name :: .symbol .openRound :: ((Written.list items).promote.tokens ++ [.symbol .closeRound])) := by
  have hL := lexer_rules
  obtain ⟨c, w, hname, hsmall⟩ := Formula.small_name (Function.isVariadic_of_gather hg)
  rw [List.forall_mem_cons] at hsmall
  have hchars : ∀ d ∈ w, Token.isNameChar d = true := fun d hd =>
    Formula.isNameChar_of_isLetter (Formula.isLetter_of_isSmall (hsmall.2 d hd))
  obtain ⟨t, ht⟩ : ∃ t, (Written.list items).promote.text = '[' :: t := ⟨_, rfl⟩
  have hopen : ∀ d ∈ ((Written.list items).promote.text ++ [')']).head?, d ≠ ')' ∧ d ≠ '*' := by
    rw [ht]
    exact fun d hd => Option.some.inj hd ▸ (by decide)
  have hword : lexer.lexFrom true (c :: w ++ '(' :: ((Written.list items).promote.text ++ [')'])) = _ :=
    Lexer.lexFrom_token (hL.lexeme?_word (Formula.isLetter_of_isSmall hsmall.1) hchars (hname ▸ word?_name hg) fun d hd =>
      Option.some.inj hd ▸ rfl)
  have htext : f.name ++ '(' :: (Written.list items).promote.text ++ [')'] =
      c :: w ++ '(' :: ((Written.list items).promote.text ++ [')']) := by rw [hname]; simp
  rw [htext]
  refine hword.trans ?_
  rw [hL.lexFrom_openRound hopen, hL.lexFrom_written _ (Written.ends_cons rfl (by decide) (by decide) _ []),
    hL.lexFrom_closeRound, Lexer.lexFrom_nil, hname]
  rfl

end Gathering

theorem Function.exists_gather {f : Function} (hf : f.isVariadic = true) : ∃ g, f.gather? = some g := by
  cases f with
  | sum | mean | min | max | count => exact ⟨_, rfl⟩
  | _ => cases hf

/-! ### Languages -/

namespace Language

/-- Neither the size nor the depth of the script is too much for the language. -/
def Allows (L : Language) (script : Text) : Prop :=
  L.run script ≠ .error .malformed ∧ L.run script ≠ .error .endless

/-- What formulas count on when a script calls a function of any number of values, given the value that a script finds
for a literal with a fraction for each of its whole numbers. -/
structure Calls (L : Language) (value : Written → Value) : Prop where
  /-- A list stands for the array of the values that its items stand for. -/
  list : ∀ items, value (.list items) = .array (items.map value)
  /-- The function gets the value of the list, if the script is not too much for the language. -/
  call : ∀ (f : Function) g, f.gather? = some g → ∀ items,
    L.Allows (f.name ++ '(' :: (Written.list items).promote.text ++ [')']) →
    L.run (f.name ++ '(' :: (Written.list items).promote.text ++ [')']) = g (value (.list items))

end Language

/-- The language of the scripts here calls functions with lists. -/
theorem language_calls (draws : Nat → Float) : (language draws).Calls Written.value where
  list items := by rw [Written.value, Written.values_eq_map]
  call f g hg items hallows := by
    obtain ⟨hmalformed, hendless⟩ := hallows
    have hrun := run_call_list hg draws (lex_call hg items)
    rw [show run _ draws = (language draws).run _ from rfl] at hrun
    by_cases hfits : (Written.list items).fits (maxLevels - 3) = true
    · rw [if_pos hfits] at hrun
      by_cases hcost : (Written.list items).cost + 3 ≤ maxOperations
      · rw [hrun, if_pos hcost]
      · exact absurd (hrun.trans (if_neg hcost)) hendless
    · exact absurd (hrun.trans (if_neg hfits)) hmalformed

end Spreadsheet.Script
