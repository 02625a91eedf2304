import Spreadsheet.Proofs.Script.Rules

/-!
# Lexemes

A lexer reads a script one lexeme after another. `Lexer.lexemesFrom` keeps how the lexemes are spelled and what is left
where one is malformed: nothing is lost (`flatten_lexemesFrom`), and the tokens of a script are those of its lexemes if
nothing is left (`lexFrom_eq_lexemesFrom`).
-/

namespace Spreadsheet.Script

/-- A lexeme as it is spelled, with its token unless it is white space or a comment. -/
structure Lexeme where
  spelling : Text
  token : Option Token
  deriving DecidableEq, Repr

/-- The lexemes of a text up to the first malformed one, and the text from there on. -/
structure Lexemes where
  read : List Lexeme
  unread : Text
  deriving DecidableEq, Repr

namespace Lexer

variable {L : Lexer} {operand : Bool} {s rest : Text}

theorem lexFrom_nil (operand : Bool) : L.lexFrom operand [] = some [] := by rw [lexFrom]

theorem lexFrom_of_lexeme? {k : Option Token} (h : L.lexeme? operand s = some (k, rest)) :
    L.lexFrom operand s = (L.lexFrom (L.operandAfter operand k) rest).map (k.toList ++ ·) := by
  cases s with
  | nil =>
    obtain ⟨x, hx, hnil⟩ := L.takes _ _ _ _ h
    exact absurd (List.append_eq_nil_iff.1 hnil.symm).1 hx
  | cons c t =>
    rw [lexFrom]
    split
    · next hnone =>
      rw [h] at hnone
      cases hnone
    · next hsome =>
      rw [h] at hsome
      cases hsome
      rfl

theorem lexFrom_of_lexeme?_none {c : Char} {t : Text} (h : L.lexeme? operand (c :: t) = none) :
    L.lexFrom operand (c :: t) = none := by
  rw [lexFrom]
  split
  · rfl
  · next hsome =>
    rw [h] at hsome
    cases hsome

theorem lexFrom_token {k : Token} (h : L.lexeme? operand s = some (some k, rest)) :
    L.lexFrom operand s = (L.lexFrom (L.opensOperand k) rest).map (k :: ·) := lexFrom_of_lexeme? h

theorem lexFrom_skip (h : L.lexeme? operand s = some (none, rest)) : L.lexFrom operand s = L.lexFrom operand rest := by
  rw [lexFrom_of_lexeme? h, operandAfter]
  cases L.lexFrom operand rest <;> rfl

/-- What is read is what is gone from the front of the text. -/
theorem take_of_lexeme? {k : Option Token} (h : L.lexeme? operand s = some (k, rest)) :
    s.take (s.length - rest.length) ≠ [] ∧ s = s.take (s.length - rest.length) ++ rest := by
  obtain ⟨x, hx, rfl⟩ := L.takes _ _ _ _ h
  rw [List.length_append, Nat.add_sub_cancel, List.take_left]
  exact ⟨hx, rfl⟩

/-- The lexemes of a text, where an operand may begin at its start or not. -/
def lexemesFrom (L : Lexer) (operand : Bool) (s : Text) : Lexemes :=
  match s with
  | [] => ⟨[], []⟩
  | c :: t =>
    match h : L.lexeme? operand (c :: t) with
    | none => ⟨[], c :: t⟩
    | some (k, rest) =>
      have := L.length_lexeme? h
      let behind := lexemesFrom L (L.operandAfter operand k) rest
      ⟨⟨(c :: t).take ((c :: t).length - rest.length), k⟩ :: behind.read, behind.unread⟩
termination_by s.length
decreasing_by exact this

def lexemes (L : Lexer) (s : Text) : Lexemes := L.lexemesFrom true s

/-- The tokens of a text are those of its lexemes. -/
theorem lexFrom_eq_lexemesFrom (operand : Bool) (s : Text) :
    L.lexFrom operand s =
      if (L.lexemesFrom operand s).unread = [] then
        some ((L.lexemesFrom operand s).read.flatMap (·.token.toList))
      else none := by
  fun_induction lexemesFrom L operand s with
  | case1 => rw [lexFrom_nil]; rfl
  | case2 operand c t h => rw [lexFrom_of_lexeme?_none h, if_neg (List.cons_ne_nil c t)]
  | case3 operand c t k rest h _ behind ih =>
    rw [lexFrom_of_lexeme? h, ih]
    dsimp only
    split
    · rfl
    · rfl

/-- The lexemes make up the text. -/
theorem flatten_lexemesFrom (operand : Bool) (s : Text) :
    (L.lexemesFrom operand s).read.flatMap Lexeme.spelling ++ (L.lexemesFrom operand s).unread = s := by
  fun_induction lexemesFrom L operand s with
  | case1 => rfl
  | case2 => rfl
  | case3 operand c t k rest h _ behind ih =>
    rw [List.flatMap_cons, List.append_assoc, ih]
    exact (take_of_lexeme? h).2.symm

end Lexer

end Spreadsheet.Script
