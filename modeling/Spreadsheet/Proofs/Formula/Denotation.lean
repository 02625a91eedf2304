import Mathlib.Algebra.Order.BigOperators.Group.List
import Mathlib.Algebra.Order.Group.Nat
import Mathlib.Logic.Relation
import Spreadsheet.Proofs.Formula.Reading

/-!
# What formulas mean

`Denotes c v` says that the cell has the value: it is that of its text, or that of its formula when every
reference stands for the value of the cell it names, whatever the length of the chains. `Means` says the same
of a content at a position. A cell has at most one value (`Denotes.functional`) and is on no cycle of references
if it has one (`Denotes.acyclic`).
-/

namespace Spreadsheet.Formula

open Script (Value)

def Result.outcome : Result → Outcome
  | .value v => .value v
  | .generate r => .generate r

namespace Setting

variable (s : Setting)

/-! ### Meaning -/

/-- What a formula evaluates to when each cell has the value that an environment gives it. -/
def formulaIn (env : Cell → Value) (c : Option Cell) (body : Text) : Except Error Result :=
  resultIn env fun value => s.formula value c body

/-- The value of a cell. -/
inductive Denotes : Cell → Value → Prop
  | text {c : Cell} (h : body? (s.content c) = none) : Denotes c (Value.ofRaw (s.content c))
  | formula {c : Cell} {body : Text} {env : Cell → Value} {v : Value} (hbody : body? (s.content c) = some body)
    (henv : ∀ d ∈ s.references body, Denotes d (env d))
    (hv : s.formulaIn env (some c) body = .ok (.value v)) : Denotes c v

/-- The outcome of a content in a cell or outside all cells, if it is no error. -/
inductive Means (c : Option Cell) : Text → Outcome → Prop
  | text {t : Text} (h : body? t = none) : Means c t (.text t)
  | formula {t body : Text} {env : Cell → Value} {r : Result} (hbody : body? t = some body)
    (henv : ∀ d ∈ s.references body, s.Denotes d (env d)) (hr : s.formulaIn env c body = .ok r) :
    Means c t r.outcome

variable {s}

theorem formulaIn_congr {env env' : Cell → Value} {c : Option Cell} {body : Text}
    (h : ∀ d ∈ s.references body, env d = env' d) : s.formulaIn env c body = s.formulaIn env' c body :=
  (s.reads_formula c body).resultIn_congr h

theorem Denotes.functional {c : Cell} {v v' : Value} (h : s.Denotes c v) (h' : s.Denotes c v') : v = v' := by
  induction h generalizing v' with
  | text h =>
    cases h' with
    | text => rfl
    | formula hbody => simp [h] at hbody
  | @formula c body env v hbody henv hv ih =>
    cases h' with
    | text h => simp [h] at hbody
    | @formula _ body' env' _ hbody' henv' hv' =>
      obtain rfl : body = body' := by simpa [hbody] using hbody'
      rw [formulaIn_congr fun d hd => ih d hd (henv' d hd), hv'] at hv
      cases hv
      rfl

theorem Means.functional {c : Option Cell} {t : Text} {o o' : Outcome} (h : s.Means c t o) (h' : s.Means c t o') :
    o = o' := by
  cases h with
  | text h =>
    cases h' with
    | text => rfl
    | formula hbody => simp [h] at hbody
  | @formula body env r hbody henv hr =>
    cases h' with
    | text h => simp [h] at hbody
    | @formula body' env' r' hbody' henv' hr' =>
      obtain rfl : body = body' := by simpa [hbody] using hbody'
      rw [formulaIn_congr fun d hd => (henv d hd).functional (henv' d hd), hr'] at hr
      cases hr
      rfl

theorem Means.exists_env {c : Option Cell} {t body : Text} {o : Outcome} (h : s.Means c t o)
    (hbody : body? t = some body) :
    ∃ env r, (∀ d ∈ s.references body, s.Denotes d (env d)) ∧ s.formulaIn env c body = .ok r ∧ o = r.outcome := by
  cases h with
  | text h => simp [h] at hbody
  | @formula body' env r hbody' henv hr =>
    obtain rfl : body = body' := by simpa [hbody] using hbody'
    exact ⟨env, r, henv, hr, rfl⟩

/-! ### Chains of references -/

variable (s)

/-- The formula in the second cell refers to the first cell. -/
def Feeds (d c : Cell) : Prop := ∃ body, body? (s.content c) = some body ∧ d ∈ s.references body

/-- Every chain of references that starts in the cell enters at most so many formulas. -/
def Shallow : Nat → Cell → Prop
  | 0, c => body? (s.content c) = none
  | n + 1, c => ∀ d, s.Feeds d c → Shallow n d

/-- No formula among the cells feeds the cell. -/
def Clear (visiting : List Cell) (c : Cell) : Prop :=
  ∀ d ∈ visiting, (body? (s.content d)).isSome → ¬ Relation.ReflTransGen s.Feeds d c

variable {s}

theorem not_feeds {c d : Cell} (h : body? (s.content c) = none) : ¬ s.Feeds d c := by
  rintro ⟨body, hbody, -⟩
  simp [h] at hbody

theorem Feeds.mem {c d : Cell} {body : Text} (h : s.Feeds d c) (hbody : body? (s.content c) = some body) :
    d ∈ s.references body := by
  obtain ⟨body', hbody', hd⟩ := h
  obtain rfl : body = body' := by simpa [hbody] using hbody'
  exact hd

theorem Shallow.mono {n m : Nat} {c : Cell} (h : s.Shallow n c) (hnm : n ≤ m) : s.Shallow m c := by
  induction m generalizing n c with
  | zero =>
    obtain rfl : n = 0 := by omega
    exact h
  | succ m ih =>
    intro d hd
    cases n with
    | zero => exact absurd hd (not_feeds h)
    | succ n => exact ih (h d hd) (by omega)

theorem Denotes.acc {c : Cell} {v : Value} (h : s.Denotes c v) : Acc s.Feeds c := by
  induction h with
  | text h => exact ⟨_, fun d hd => absurd hd (not_feeds h)⟩
  | formula hbody henv hv ih => exact ⟨_, fun d hd => ih d (hd.mem hbody)⟩

theorem acyclic_of_acc {c : Cell} (h : Acc s.Feeds c) : ¬ Relation.TransGen s.Feeds c c := by
  have hacc := h.transGen
  clear h
  intro hc
  induction hacc with
  | intro c _ ih => exact ih c hc hc

theorem Denotes.acyclic {c : Cell} {v : Value} (h : s.Denotes c v) : ¬ Relation.TransGen s.Feeds c c :=
  acyclic_of_acc h.acc

theorem Clear.not_mem {visiting : List Cell} {c : Cell} {body : Text} (h : s.Clear visiting c)
    (hbody : body? (s.content c) = some body) : c ∉ visiting :=
  fun hc => h c hc (by simp [hbody]) .refl

theorem clear_of_text {visiting : List Cell} {c : Cell} (h : body? (s.content c) = none) : s.Clear visiting c := by
  intro d _ hd hdc
  rcases Relation.ReflTransGen.cases_tail hdc with rfl | ⟨e, -, he⟩
  · simp [h] at hd
  · exact not_feeds h he

/-- What is clear of a cell on no cycle is clear of what the cell refers to, and so is the cell itself. -/
theorem Clear.cons {visiting : List Cell} {c d : Cell} (h : s.Clear visiting c) (hd : s.Feeds d c)
    (hc : ¬ Relation.TransGen s.Feeds c c) : s.Clear (c :: visiting) d := by
  intro e he hsome hed
  rcases List.mem_cons.1 he with rfl | he
  · exact hc (.tail' hed hd)
  · exact h e he hsome (hed.tail hd)

/-- The chains of references that start in a cell with a value are bounded. -/
theorem Denotes.exists_shallow {c : Cell} {v : Value} (h : s.Denotes c v) : ∃ n, s.Shallow n c := by
  induction h with
  | text h => exact ⟨0, h⟩
  | @formula c body env v hbody henv hv ih =>
    choose! depth hdepth using ih
    refine ⟨((s.references body).map depth).sum + 1, fun d hd => ?_⟩
    have hmem := hd.mem hbody
    exact (hdepth d hmem).mono (List.le_sum_of_mem (List.mem_map_of_mem hmem))

end Setting

end Spreadsheet.Formula
