import Spreadsheet.Proofs.Formula.Memory

/-!
# Errors reach the formulas that refer to them

A formula that comes to no error refers only to cells with values (`references_denote`). On its own such a cell
comes to its value, or to the error that its chain of references is too long (`evaluate_of_denotes`): the
formula may have found the far end of that chain on another way before, and remembered it. So no error but this
one is lost in a reference, and none at all where chains are short (`evaluate_propagates`).
-/

namespace Spreadsheet.Formula

open Script (Value)

namespace Setting

variable {s : Setting}

/-- A formula that comes to no error refers to cells with values. -/
theorem references_denote {c : Cell} {content body : Text} (hbody : body? content = some body)
    (hok : (s.evaluate c content).isError = false) : ∀ d ∈ s.references body, ∃ v, s.Denotes d v := by
  intro d hd
  rw [evaluate_eq] at hok
  obtain ⟨env, r, henv, -, -⟩ := (evaluateWith_means hok).exists_env hbody
  exact ⟨env d, henv d hd⟩

/-- A formula in a cell that none of its references feeds comes to its result in the environment of their
values, unless a chain of references is too long. -/
theorem walk_complete {c : Cell} {body : Text} {env : Cell → Value} {r : Result}
    (henv : ∀ d ∈ s.references body, s.Denotes d (env d)) (hclear : ∀ d ∈ s.references body, s.Clear [c] d)
    (hr : s.formulaIn env (some c) body = .ok r) :
    ((s.walk true (some c) body).result Trail.empty).1 = .ok r ∨
      ∃ e, ((s.walk true (some c) body).result Trail.empty).1 = .error e ∧
        ∃ d ∈ s.references body, s.Deep (maxDepth - 1) d e :=
  (formula_complete (fun d hd => valueWith_complete (henv d hd) (hclear d hd)) hr
    (Trail.empty.enter c) ⟨own_nil [c], rfl⟩).1

/-- What a cell with a value comes to on its own. -/
theorem evaluate_of_denotes {c : Cell} {v : Value} (h : s.Denotes c v) :
    (s.evaluate c (s.content c) = .text (s.content c) ∧ v = Value.ofRaw (s.content c)) ∨
      s.evaluate c (s.content c) = .value v ∨
      ∃ d, s.evaluate c (s.content c) = .error (.tooDeep d) ∧ ¬ s.Shallow maxDepth c := by
  have hacyclic : ¬ Relation.TransGen s.Feeds c c := h.acyclic
  cases h with
  | text hbody =>
    refine .inl ⟨?_, rfl⟩
    rw [evaluate, hbody]
  | @formula _ body env _ hbody henv hv =>
    have hclear : ∀ d ∈ s.references body, s.Clear [c] d := fun d hd =>
      Clear.cons (fun _ h => absurd h List.not_mem_nil) ⟨body, hbody, hd⟩ hacyclic
    rw [evaluate_eq, evaluateWith, hbody]
    dsimp only
    rcases walk_complete henv hclear hv with hr | ⟨e, hr, d, hd, ⟨x, rfl⟩, hdeep⟩
    · exact .inr (.inl (outcome_of_ok hr))
    · refine .inr (.inr ⟨x, outcome_of_error hr, fun hshallow => hdeep ?_⟩)
      exact hshallow d ⟨body, hbody, hd⟩

/-- If a formula comes to no error, then each cell it refers to has a value and comes to it on its own, or else
its chain of references is too long and it comes on its own to that error. -/
theorem evaluate_propagates (s : Setting) (c : Cell) (content body : Text) (hbody : body? content = some body)
    (hok : (s.evaluate c content).isError = false) :
    ∀ d ∈ s.references body, ∃ v, s.Denotes d v ∧
      ((s.evaluate d (s.content d) = .text (s.content d) ∧ v = Value.ofRaw (s.content d)) ∨
        s.evaluate d (s.content d) = .value v ∨
        ∃ e, s.evaluate d (s.content d) = .error (.tooDeep e) ∧ ¬ s.Shallow maxDepth d) := by
  intro d hd
  obtain ⟨v, hv⟩ := references_denote hbody hok d hd
  exact ⟨v, hv, evaluate_of_denotes hv⟩

/-- A column in which each cell but the first refers to the one above it. -/
def chain (n : Nat) : Grid where
  headers := [Label.ofIndex 0]
  rows := ["x".toList] :: (List.range n).map fun i => ['=' :: (Cell.mk i 0).name]

/-- The last cell of a long chain is an error on its own, but not for a formula that refers to the middle of the
chain before. -/
theorem evaluate_propagates_chain :
    let s : Setting := { grid := (chain 71).set ⟨71, 0⟩ "=A40+A71".toList }
    (s.evaluate ⟨71, 0⟩ (s.content ⟨71, 0⟩)).isError = false ∧
      (s.evaluate ⟨70, 0⟩ (s.content ⟨70, 0⟩)).isError = true ∧
      ⟨70, 0⟩ ∈ s.references "A40+A71".toList ∧ ¬ s.Shallow maxDepth ⟨70, 0⟩ := by
  intro s
  have hbody : body? (s.content ⟨71, 0⟩) = some "A40+A71".toList := by decide +kernel
  have hok : (s.evaluate ⟨71, 0⟩ (s.content ⟨71, 0⟩)).isError = false := by decide +kernel
  have herror : (s.evaluate ⟨70, 0⟩ (s.content ⟨70, 0⟩)).isError = true := by decide +kernel
  have hmem : ⟨70, 0⟩ ∈ s.references "A40+A71".toList := by decide +kernel
  refine ⟨hok, herror, hmem, ?_⟩
  obtain ⟨v, -, ⟨ht, -⟩ | hv | ⟨e, -, hdeep⟩⟩ := s.evaluate_propagates _ _ _ hbody hok _ hmem
  · rw [ht] at herror
    cases herror
  · rw [hv] at herror
    cases herror
  · exact hdeep

end Setting

end Spreadsheet.Formula
