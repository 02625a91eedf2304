import Spreadsheet.Text.Blank
import Spreadsheet.Text.Hex
import Spreadsheet.Number.Read
import Spreadsheet.Script.Token

/-!
# Lexers

How far the lexemes of a script reach is a matter of their spelling: a literal to its closing mark, a
comment to where it ends, a number over its digits, point and exponent, a symbol as far as there is one. A
`Lexer` reads a script lexeme by lexeme, and says what a word, a number, a text or a symbol stands for by
its spelling alone. Its `lex` finds the tokens of a whole script.
-/

namespace Spreadsheet.Script

namespace Token

/-! ### Literals and comments -/

/-- The text of a literal up to its closing mark, and what follows. Whatever stands behind a backslash
belongs to the literal, and so does the mark when it is doubled. -/
def closing (close : Char) : Text → Option (Text × Text)
  | [] => none
  | [c] => if c = close then some ([], []) else none
  | c :: d :: t =>
    if c = '\\' ∨ (c = close ∧ d = close) then (closing close t).map fun (a, b) => (c :: d :: a, b)
    else if c = close then some ([], d :: t)
    else (closing close (d :: t)).map fun (a, b) => (c :: a, b)

/-- Characters that end a line. -/
def endsLine (c : Char) : Bool := c == '\n' || c == '\r'

/-- What follows a comment that is open `depth + 1` times. -/
def afterComment : (depth : Nat) → Text → Text
  | _, [] => []
  | depth, '/' :: '*' :: t => afterComment (depth + 1) t
  | 0, '*' :: '/' :: t => t
  | depth + 1, '*' :: '/' :: t => afterComment depth t
  | depth, _ :: t => afterComment depth t

/-! ### Numbers -/

/-- Digits and the underscores among them. -/
def isDigitRun (c : Char) : Bool := Text.isDigit c || c == '_'

/-- Digits without the underscores among them. -/
def plain (t : Text) : Text := t.filter (· != '_')

/-- The base announced by a letter behind a zero. -/
def base? (c : Char) : Option Nat :=
  if c = 'x' ∨ c = 'X' then some 16
  else if c = 'o' ∨ c = 'O' then some 8
  else if c = 'b' ∨ c = 'B' then some 2
  else none

/-- The base that a letter behind a leading zero announces, and the text behind the letter. -/
def announced? : Text → Option (Nat × Text)
  | '0' :: t => match t.dropWhile (· == '_') with
    | b :: u => (base? b).map fun base => (base, u)
    | [] => none
  | _ => none

/-- Hexadecimal digits in base 16, decimal ones in any other base, and the underscores among them. -/
def isBaseRun (base : Nat) (c : Char) : Bool :=
  if base = 16 then (Text.hexDigit? c).isSome || c == '_' else isDigitRun c

/-- The digits behind a point, if the point belongs to the number, and the rest. It does not in front
of a letter, an underscore, another point or the end. -/
def fraction : Text → Option Text × Text
  | '.' :: c :: t =>
    if Text.isDigit c then (some (plain (c :: t.takeWhile isDigitRun)), t.dropWhile isDigitRun)
    else if Text.isLetter c || c == '_' || c == '.' then (none, '.' :: c :: t)
    else (some ['0'], c :: t)
  | t => (none, t)

/-- An exponent, if one follows, and the rest. -/
def exponent : Text → Option Text × Text
  | e :: c :: t =>
    if (e = 'e' ∨ e = 'E') ∧ (Text.isDigit c ∨ c = '+' ∨ c = '-') then
      (some (e :: c :: plain (t.takeWhile isDigitRun)), t.dropWhile isDigitRun)
    else (none, e :: c :: t)
  | t => (none, t)

/-- How a number is spelled, without the underscores among its digits. -/
inductive Spelled
  | based (base : Nat) (digits : Text)
  | decimal (whole : Text) (fraction exponent : Option Text)
  deriving DecidableEq, Repr

/-- The spelling of a number that starts with a digit, and what follows. -/
def spelled (s : Text) : Spelled × Text :=
  match announced? s with
  | some (base, t) => (.based base (plain (t.takeWhile (isBaseRun base))), t.dropWhile (isBaseRun base))
  | none =>
    let (behind, rest) := fraction (s.dropWhile isDigitRun)
    let (power, rest) := exponent rest
    (.decimal (plain (s.takeWhile isDigitRun)) behind power, rest)

/-! ### Symbols -/

/-- A symbol that begins with `x` goes on as long as there is one. -/
def munch (known : Text → Bool) (x : Text) : Text → Text × Text
  | [] => (x, [])
  | c :: t => if known (x ++ [c]) then munch known (x ++ [c]) t else (x, c :: t)

/-- The longest symbol that a text begins with, and what follows. The last two characters of `!in` do not
begin a word. -/
def symbolSpan (known : Text → Bool) : Text → Text × Text
  | '!' :: 'i' :: 'n' :: t =>
    if t.head?.any isNameChar then (['!'], 'i' :: 'n' :: t) else (['!', 'i', 'n'], t)
  | s => munch known [] s

/-! ### Every shape is a beginning -/

variable {t x rest : Text}

theorem closing_eq_append {close : Char} (h : closing close t = some (x, rest)) : t = x ++ close :: rest := by
  fun_induction closing close t generalizing x with
  | case1 => cases h
  | case2 =>
    obtain ⟨rfl, rfl⟩ := Prod.mk.inj (Option.some.inj h)
    rfl
  | case3 => cases h
  | case4 c d t _ ih =>
    obtain ⟨⟨a, b⟩, hab, h⟩ := Option.map_eq_some_iff.1 h
    obtain ⟨rfl, rfl⟩ := Prod.mk.inj h
    rw [ih hab]
    rfl
  | case5 d t _ =>
    obtain ⟨rfl, rfl⟩ := Prod.mk.inj (Option.some.inj h)
    rfl
  | case6 c d t _ _ ih =>
    obtain ⟨⟨a, b⟩, hab, h⟩ := Option.map_eq_some_iff.1 h
    obtain ⟨rfl, rfl⟩ := Prod.mk.inj h
    rw [ih hab]
    rfl

theorem suffix_afterComment (d : Nat) (t : Text) : afterComment d t <:+ t := by
  fun_induction afterComment d t with
  | case1 => exact List.suffix_refl _
  | case2 d t ih => exact ih.trans ((List.suffix_cons _ _).trans (List.suffix_cons _ _))
  | case3 t => exact (List.suffix_cons _ _).trans (List.suffix_cons _ _)
  | case4 d t ih => exact ih.trans ((List.suffix_cons _ _).trans (List.suffix_cons _ _))
  | case5 d c t _ _ _ ih => exact ih.trans (List.suffix_cons _ _)

theorem suffix_announced? {base : Nat} {u : Text} (h : announced? t = some (base, u)) : u <:+ t.tail := by
  unfold announced? at h
  split at h
  · next t =>
    split at h
    · next b v hv =>
      obtain ⟨_, -, h⟩ := Option.map_eq_some_iff.1 h
      obtain ⟨-, rfl⟩ := Prod.mk.inj h
      exact (List.suffix_cons b v).trans (hv ▸ List.dropWhile_suffix _)
    · cases h
  · cases h

theorem suffix_fraction (t : Text) : (fraction t).2 <:+ t := by
  unfold fraction
  split
  · split
    · exact (List.dropWhile_suffix _).trans ((List.suffix_cons _ _).trans (List.suffix_cons _ _))
    · split
      · exact List.suffix_refl _
      · exact List.suffix_cons _ _
  · exact List.suffix_refl _

theorem suffix_exponent (t : Text) : (exponent t).2 <:+ t := by
  unfold exponent
  split
  · split
    · exact (List.dropWhile_suffix _).trans ((List.suffix_cons _ _).trans (List.suffix_cons _ _))
    · exact List.suffix_refl _
  · exact List.suffix_refl _

/-- A number takes its first digit. -/
theorem suffix_spelled {c : Char} (hc : Text.isDigit c = true) (t : Text) : (spelled (c :: t)).2 <:+ t := by
  unfold spelled
  split
  · next ha => exact (List.dropWhile_suffix _).trans (suffix_announced? ha)
  · have hrun : (c :: t).dropWhile isDigitRun = t.dropWhile isDigitRun :=
      List.dropWhile_cons_of_pos (by simp [isDigitRun, hc])
    rw [hrun]
    exact (suffix_exponent _).trans ((suffix_fraction _).trans (List.dropWhile_suffix _))

theorem munch_append (known : Text → Bool) (x t : Text) : (munch known x t).1 ++ (munch known x t).2 = x ++ t := by
  induction t generalizing x with
  | nil => rfl
  | cons c t ih =>
    rw [munch]
    split
    · rw [ih, List.append_assoc]
      rfl
    · rfl

theorem symbolSpan_append (known : Text → Bool) (s : Text) :
    (symbolSpan known s).1 ++ (symbolSpan known s).2 = s := by
  unfold symbolSpan
  split
  · split <;> rfl
  · exact munch_append known [] s

/-! ### Tokens -/

/-- A token in front of what follows it. -/
def before (rest : Text) (k : Option Token) : Option (Option Token × Text) := k.map fun k => (some k, rest)

theorem before_eq_some {rest b : Text} {o : Option Token} {k : Option Token} :
    before rest o = some (k, b) ↔ ∃ k', o = some k' ∧ k = some k' ∧ b = rest := by
  cases o with
  | none => simp [before]
  | some k' => simp [before, eq_comm]

theorem exists_of_bind_before {o : Option (Text × Text)} {meaning : Text → Option Token} {k : Option Token} {b : Text}
    (h : (o.bind fun r => before r.2 (meaning r.1)) = some (k, b)) : ∃ x, o = some (x, b) := by
  obtain ⟨⟨x, rest⟩, ho, h⟩ := Option.bind_eq_some_iff.1 h
  obtain ⟨-, -, -, rfl⟩ := before_eq_some.1 h
  exact ⟨x, ho⟩

end Token

/-- Finds the lexemes of a script, and the tokens that words, numbers, texts and symbols stand for. -/
structure Lexer where
  /-- The token at the start of a text, or nothing for white space and comments, with the rest. It
  depends on whether an operand may begin there. -/
  lexeme? : (operand : Bool) → Text → Option (Option Token × Text)
  /-- Whether an operand begins behind a token. -/
  opensOperand : Token → Bool
  word? : Text → Option Token
  number? : (negative : Bool) → Token.Spelled → Option Token
  /-- The token of a quoted text, given what stands between its marks. -/
  text? : Text → Option Token
  symbol? : Text → Option Token
  /-- A lexeme takes at least one character. -/
  takes : ∀ operand s k rest, lexeme? operand s = some (k, rest) → ∃ x, x ≠ [] ∧ s = x ++ rest

namespace Lexer

variable (L : Lexer)

theorem length_lexeme? {operand : Bool} {s rest : Text} {k : Option Token}
    (h : L.lexeme? operand s = some (k, rest)) : rest.length < s.length := by
  obtain ⟨x, hx, rfl⟩ := L.takes operand s k rest h
  rw [List.length_append]
  exact Nat.lt_add_of_pos_left (List.length_pos_iff.2 hx)

/-- Whether an operand may begin behind a lexeme. -/
def operandAfter (operand : Bool) : Option Token → Bool
  | some k => L.opensOperand k
  | none => operand

/-- The tokens of a text, where an operand may begin at its start or not. -/
def lexFrom (operand : Bool) (s : Text) : Option (List Token) :=
  match s with
  | [] => some []
  | c :: t =>
    match h : L.lexeme? operand (c :: t) with
    | none => none
    | some (k, rest) =>
      have := L.length_lexeme? h
      (lexFrom (L.operandAfter operand k) rest).map (k.toList ++ ·)
termination_by s.length
decreasing_by exact this

/-- The tokens of a script; a script with anything else in it has none. -/
def lex (s : Text) : Option (List Token) := L.lexFrom true s

end Lexer

end Spreadsheet.Script
