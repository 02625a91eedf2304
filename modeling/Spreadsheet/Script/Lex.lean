import Spreadsheet.Script.Lexer

/-!
# Lexing

The lexer of the scripts here. `Token.lexeme?` reads one token, blank or comment. A minus sign right in
front of a digit belongs to the number where an operand begins.
-/

namespace Spreadsheet.Script

namespace Token

/-! ### Meanings -/

/-- The character that an escape stands for, given the text behind its backslash; `close` is the mark
that ends the literal. -/
def escaped? (close : Char) : Text → Option (Char × Text)
  | [] => none
  | c :: t =>
    if c = close ∨ c = '\\' then some (c, t)
    else if c = 'n' then some ('\n', t)
    else if c = 'r' then some ('\r', t)
    else if c = 't' then some ('\t', t)
    else if c = 'x' then Text.charOfHex? 2 t
    else if c = 'u' then Text.charOfHex? 4 t
    else if c = 'U' then Text.charOfHex? 8 t
    else none

theorem length_escaped? {close c : Char} {t u : Text} (h : escaped? close t = some (c, u)) :
    u.length < t.length := by
  cases t with
  | nil => simp [escaped?] at h
  | cons d t =>
    simp only [escaped?] at h
    repeat' split at h
    all_goals first
      | (obtain ⟨-, rfl⟩ := by simpa using h
         simp)
      | exact Nat.lt_succ_of_le (Text.length_charOfHex? h)
      | simp at h

/-- The characters that the text of a literal stands for. The mark stands for itself when it is doubled; a
line may not end inside. -/
def unescape? (close : Char) (t : Text) : Option Text :=
  match t with
  | [] => some []
  | c :: t =>
    if c = close then
      match t with
      | [] => none
      | d :: u => if d = close then (unescape? close u).map (c :: ·) else none
    else if c = '\\' then
      match h : escaped? close t with
      | none => none
      | some (e, u) =>
        have := length_escaped? h
        (unescape? close u).map (e :: ·)
    else if c = '\n' then none
    else (unescape? close t).map (c :: ·)
termination_by t.length
decreasing_by all_goals simp only [List.length_cons]; omega

def text? (t : Text) : Option Token := (unescape? '"' t).map .text

/-- A single character; the mark itself must be escaped. -/
def character? (t : Text) : Option Token :=
  if t.head? = some '\x27' then none
  else match unescape? '\x27' t with
    | some [c] => some (.char c)
    | _ => none

/-- The characters of a literal without escapes, up to its closing mark, and what follows. A line break
of two characters counts as one. -/
def verbatim? : Text → Option (Text × Text)
  | [] => none
  | '\x60' :: '\x60' :: t => (verbatim? t).map fun (a, b) => ('\x60' :: a, b)
  | '\x60' :: t => some ([], t)
  | '\r' :: '\n' :: t => (verbatim? t).map fun (a, b) => ('\n' :: a, b)
  | c :: t => (verbatim? t).map fun (a, b) => (c :: a, b)

/-- The text without one line break at its start. -/
def dropLineBreak : Text → Text
  | '\r' :: '\n' :: t => t
  | '\r' :: t => t
  | '\n' :: t => t
  | t => t

/-- The token of a number. In another base there are no negative numbers, and none of more than 64 bits. -/
def number? (negative : Bool) : Spelled → Option Token
  | .based base digits => do
    let n ← Text.inBase? base digits
    if negative ∨ digits.isEmpty ∨ Nat.pow 2 64 ≤ n then none else some (.word n)
  | .decimal digits none none => some (whole negative digits)
  | .decimal digits behind power => do
    let e ← Number.exponent? (power.getD [])
    return .decimal negative (Decimal.ofParts digits (behind.getD []) e)

/-- A keyword, a command or a name. A name has a letter in front of its first digit. -/
def word? (w : Text) : Option Token :=
  match keywords.lookup w with
  | some k => some (.keyword k)
  | none =>
    if commands.contains w then some (.command w)
    else if reserved.contains w then some (.other w)
    else if (w.find? (· != '_')).any Text.isLetter then some (.name w)
    else none

def symbol? (x : Text) : Option Token :=
  match symbols.lookup x with
  | some s => some (.symbol s)
  | none => if reservedSymbols.contains x then some (.other x) else none

def isSymbol (x : Text) : Bool := (symbol? x).isSome

/-! ### Lexemes -/

/-- The token at the start of a text, or nothing for white space and comments, with the rest. A minus
sign may belong to a number where an operand begins. -/
def lexeme? (operand : Bool) (s : Text) : Option (Option Token × Text) :=
  match s with
  | [] => none
  | '/' :: '/' :: t => some (none, t.dropWhile (!endsLine ·))
  | '/' :: '*' :: t => some (none, afterComment 0 t)
  | c :: t =>
    if Text.isGap c then some (none, t)
    else if c = '"' then (closing '"' t).bind fun r => before r.2 (text? r.1)
    else if c = '\x60' then (verbatim? (dropLineBreak t)).bind fun r => before r.2 (some (.text r.1))
    else if c = '\x27' then (closing '\x27' t).bind fun r => before r.2 (character? r.1)
    else if Text.isDigit c then before (spelled (c :: t)).2 (number? false (spelled (c :: t)).1)
    else if c = '-' ∧ operand ∧ (t.head?.any Text.isDigit) then before (spelled t).2 (number? true (spelled t).1)
    else if Text.isLetter c || c == '_' then
      before ((c :: t).dropWhile isNameChar) (word? ((c :: t).takeWhile isNameChar))
    else before (symbolSpan isSymbol (c :: t)).2 (symbol? (symbolSpan isSymbol (c :: t)).1)

/-! ### Every lexeme takes a character -/

theorem suffix_verbatim? {t a b : Text} (h : verbatim? t = some (a, b)) : b <:+ t := by
  fun_induction verbatim? t generalizing a with
  | case1 => cases h
  | case2 t ih =>
    obtain ⟨a', ha', -⟩ := Text.of_map_cons h
    exact (ih ha').trans ((List.suffix_cons _ _).trans (List.suffix_cons _ _))
  | case3 =>
    cases h
    exact List.suffix_cons _ _
  | case4 t ih =>
    obtain ⟨a', ha', -⟩ := Text.of_map_cons h
    exact (ih ha').trans ((List.suffix_cons _ _).trans (List.suffix_cons _ _))
  | case5 c t _ _ _ ih =>
    obtain ⟨a', ha', -⟩ := Text.of_map_cons h
    exact (ih ha').trans (List.suffix_cons _ _)

theorem suffix_dropLineBreak (t : Text) : dropLineBreak t <:+ t := by
  unfold dropLineBreak
  split
  · exact (List.suffix_cons _ _).trans (List.suffix_cons _ _)
  · exact List.suffix_cons _ _
  · exact List.suffix_cons _ _
  · exact List.suffix_refl _

theorem exists_append_of_suffix {c : Char} {t rest : Text} (h : rest <:+ t) : ∃ x, x ≠ [] ∧ c :: t = x ++ rest := by
  obtain ⟨x, rfl⟩ := h
  exact ⟨c :: x, List.cons_ne_nil _ _, rfl⟩

theorem takes_lexeme? (operand : Bool) (s : Text) (k : Option Token) (rest : Text)
    (h : lexeme? operand s = some (k, rest)) : ∃ x, x ≠ [] ∧ s = x ++ rest := by
  unfold lexeme? at h
  split at h
  · cases h
  · obtain ⟨-, rfl⟩ := Prod.mk.inj (Option.some.inj h)
    exact exists_append_of_suffix ((List.dropWhile_suffix _).trans (List.suffix_cons _ _))
  · obtain ⟨-, rfl⟩ := Prod.mk.inj (Option.some.inj h)
    exact exists_append_of_suffix ((suffix_afterComment _ _).trans (List.suffix_cons _ _))
  · next c t _ _ =>
    -- one case for every kind of lexeme
    split at h
    · obtain ⟨-, rfl⟩ := Prod.mk.inj (Option.some.inj h)
      exact ⟨[c], List.cons_ne_nil _ _, rfl⟩
    split at h
    · obtain ⟨x, hx⟩ := exists_of_bind_before h
      exact exists_append_of_suffix ⟨x ++ ['"'], by rw [closing_eq_append hx, List.append_assoc]; rfl⟩
    split at h
    · obtain ⟨⟨x, rest'⟩, hx, h⟩ := Option.bind_eq_some_iff.1 h
      obtain ⟨-, -, -, rfl⟩ := before_eq_some.1 h
      exact exists_append_of_suffix ((suffix_verbatim? hx).trans (suffix_dropLineBreak t))
    split at h
    · obtain ⟨x, hx⟩ := exists_of_bind_before h
      exact exists_append_of_suffix ⟨x ++ ['\x27'], by rw [closing_eq_append hx, List.append_assoc]; rfl⟩
    split at h
    · next hdigit =>
      obtain ⟨-, -, -, rfl⟩ := before_eq_some.1 h
      exact exists_append_of_suffix (suffix_spelled hdigit t)
    split at h
    · next hminus =>
      obtain ⟨-, -, -, rfl⟩ := before_eq_some.1 h
      cases t with
      | nil => exact absurd hminus.2.2 Bool.false_ne_true
      | cons d t => exact exists_append_of_suffix ((suffix_spelled hminus.2.2 t).trans (List.suffix_cons d t))
    split at h
    · next hletter =>
      obtain ⟨-, -, -, rfl⟩ := before_eq_some.1 h
      have hname : isNameChar c = true := by
        rcases Bool.or_eq_true_iff.1 hletter with hc | hc <;> simp [isNameChar, hc]
      rw [List.dropWhile_cons_of_pos hname]
      exact exists_append_of_suffix (List.dropWhile_suffix _)
    · obtain ⟨k', hk, -, rfl⟩ := before_eq_some.1 h
      refine ⟨_, fun hnil => ?_, (symbolSpan_append _ (c :: t)).symm⟩
      rw [hnil] at hk
      cases hk

end Token

/-- The lexer of the scripts here. -/
def lexer : Lexer where
  lexeme? := Token.lexeme?
  opensOperand := Token.opensOperand
  word? := Token.word?
  number? := Token.number?
  text? := Token.text?
  symbol? := Token.symbol?
  takes := Token.takes_lexeme?

/-- The tokens of a script; a script with anything else in it has none. -/
def lex (s : Text) : Option (List Token) := lexer.lex s

end Spreadsheet.Script
