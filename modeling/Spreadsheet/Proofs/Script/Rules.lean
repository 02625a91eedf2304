import Mathlib.Data.List.Infix
import Spreadsheet.Proofs.Script.Lexing

/-!
# Rules of lexers

`Lexer.Rules` is what formulas count on when texts are put together to a script: the documented rules of the lexer for
white space, comments, quotations, numbers, words and symbols. They say how far a lexeme of each kind reaches and what
the few that formulas are made of stand for. What anything else stands for is up to the lexer. By the rules a lexeme is
the same in front of any literal that does not go on with it (`Rules.lexeme?_append`, `Rules.lexeme?_append_of_quotes`).
-/

namespace Spreadsheet.Script

open Spreadsheet.Script.Token
open Text (isDigit isLetter isCapital isGap isBlank)

namespace Lexer

section Readers

variable (L : Lexer)

/-- The number that a text starts with, behind a minus sign or not. -/
def readNumber (negative : Bool) (s : Text) : Option (Option Token × Text) :=
  before (spelled s).2 (L.number? negative (spelled s).1)

def readWord (s : Text) : Option (Option Token × Text) :=
  before (s.dropWhile isNameChar) (L.word? (s.takeWhile isNameChar))

/-- The quoted text that ends at the next closing mark. -/
def readText (t : Text) : Option (Option Token × Text) := (closing '"' t).bind fun r => before r.2 (L.text? r.1)

def isSymbol (x : Text) : Bool := (L.symbol? x).isSome

def readSymbol (s : Text) : Option (Option Token × Text) :=
  before (symbolSpan L.isSymbol s).2 (L.symbol? (symbolSpan L.isSymbol s).1)

end Readers

/-- The symbols that formulas are put together with. -/
def joints : List (Text × Symbol) := [
  (['('], .openRound), ([')'], .closeRound), (['(', ')'], .emptyRound), (['['], .openSquare), ([']'], .closeSquare),
  ([','], .comma), (['.'], .dot), ([':'], .colon), (['/'], .operator .divide), (['*'], .operator .multiply),
  (['^'], .operator .differ), (['^', '='], .update .differ), (['*', '*'], .operator .power),
  (['*', '*', '='], .update .power)]

/-- The escapes that quoted values hold, by the character behind the backslash. -/
def escapes : List (Char × Char) := [('"', '"'), ('\\', '\\'), ('n', '\n'), ('r', '\r'), ('t', '\t')]

/-- What formulas count on of a lexer. -/
structure Rules (L : Lexer) : Prop where
  /-- ASCII white space is skipped. -/
  gap : ∀ operand c t, isGap c = true → L.lexeme? operand (c :: t) = some (none, t)
  /-- Any other white space is skipped wherever it stands, or malformed wherever it stands. -/
  blank : ∀ c, isBlank c = true → (∀ operand t, L.lexeme? operand (c :: t) = some (none, t)) ∨
    ∀ operand t, L.lexeme? operand (c :: t) = none
  /-- Two slashes begin a comment up to the end of the line. -/
  line : ∀ operand t, L.lexeme? operand ('/' :: '/' :: t) = some (none, t.dropWhile (!endsLine ·))
  /-- A comment between a slash with a star and a star with a slash may hold others. -/
  comment : ∀ operand t, L.lexeme? operand ('/' :: '*' :: t) = some (none, afterComment 0 t)
  /-- A text between quotation marks. -/
  text : ∀ operand t, L.lexeme? operand ('"' :: t) = L.readText t
  /-- A text between back quotes, a character between single ones and what begins with a hash end at the same place
  whatever value stands behind them, but a hash alone goes on with a quotation mark. -/
  quotation : ∀ operand m x y z u k, m ∈ ['\x60', '\x27', '#'] → L.lexeme? operand (m :: x ++ y) = some (k, u ++ y) →
    (u = [] → ∀ c ∈ z.head?, begins c = true) → (m = '#' → x = [] → z.head? ≠ some '"') →
    L.lexeme? operand (m :: x ++ z) = some (k, u ++ z)
  /-- They are not skipped. -/
  quotation_token : ∀ operand m t rest, m ∈ ['\x60', '\x27', '#'] → L.lexeme? operand (m :: t) ≠ some (none, rest)
  /-- A hash and a curly bracket open a map. -/
  map : ∀ operand t, L.lexeme? operand ('#' :: '\x7b' :: t) = some (some (.symbol .openMap), t)
  /-- A digit begins a number. -/
  number : ∀ operand c t, isDigit c = true → L.lexeme? operand (c :: t) = L.readNumber false (c :: t)
  /-- Where an operand begins, so does a minus sign in front of a digit. -/
  negative : ∀ c t, isDigit c = true → L.lexeme? true ('-' :: c :: t) = L.readNumber true (c :: t)
  /-- A letter or an underscore begins a word. -/
  word : ∀ operand c t, (isLetter c || c == '_') = true → L.lexeme? operand (c :: t) = L.readWord (c :: t)
  /-- Every other character begins a symbol, the longest one that there is. -/
  symbol : ∀ operand c t, isBlank c = false → isNameChar c = false → quotes c = false → ¬ BeginsComment (c :: t) →
    ¬ (c = '-' ∧ operand = true ∧ (t.head?.any isDigit) = true) → L.lexeme? operand (c :: t) = L.readSymbol (c :: t)
  /-- Digits alone are a whole number, or a decimal if it has more than 64 bits. -/
  whole : ∀ negative ds, ds ≠ [] → (∀ c ∈ ds, isDigit c = true) →
    L.number? negative (.decimal ds none none) = some (Token.whole negative ds)
  /-- Digits on both sides of a point are a decimal. -/
  point : ∀ negative ds fs, ds ≠ [] → (∀ c ∈ ds, isDigit c = true) → fs ≠ [] → (∀ c ∈ fs, isDigit c = true) →
    L.number? negative (.decimal ds (some fs) none) = some (.decimal negative (Decimal.ofParts ds fs 0))
  /-- There may be no characters in a quoted text. -/
  text_nil : L.text? [] = some (.text [])
  /-- Characters of a quoted text stand for themselves, apart from the mark, the backslash and line breaks. -/
  text_cons : ∀ c t u, c ≠ '"' → c ≠ '\\' → endsLine c = false → L.text? t = some (.text u) →
    L.text? (c :: t) = some (.text (c :: u))
  /-- Escapes stand for the mark, the backslash, the line breaks and the tab. -/
  text_escape : ∀ e ∈ escapes, ∀ t u, L.text? t = some (.text u) → L.text? ('\\' :: e.1 :: t) = some (.text (e.2 :: u))
  /-- No word of capitals, with digits behind the first, has a meaning of its own. -/
  name : ∀ c w, isCapital c = true → (∀ d ∈ w, isCapital d = true ∨ isDigit d = true) →
    L.word? (c :: w) = some (.name (c :: w))
  /-- The word for what is the case. -/
  yes : L.word? "true".toList = some (.keyword .yes)
  /-- The word for what is not the case. -/
  no : L.word? "false".toList = some (.keyword .no)
  /-- What brackets, punctuation and powers are. -/
  joint : ∀ p ∈ joints, L.symbol? p.1 = some (.symbol p.2)
  /-- Every symbol has a character. -/
  symbol_nil : L.symbol? [] = none
  /-- A symbol goes on with no character of names, no quotation mark, no opening bracket and no caret; a question mark may
  go on with a square bracket, and only a star and an opening bracket may go on with a star. -/
  goesOn : ∀ x c, x ≠ [] → L.isSymbol x = true → L.isSymbol (x ++ [c]) = true →
    isNameChar c = false ∧ c ≠ '"' ∧ c ≠ '(' ∧ c ≠ '^' ∧ (c = '[' → x = ['?']) ∧ (c = '*' → x = ['*'] ∨ x = ['('])
  /-- Closing brackets, empty ones, square ones, commas and assigned powers do not go on. -/
  closes : ∀ x ∈ [[')'], ['(', ')'], ['['], [']'], [','], ['^', '='], ['*', '*', '=']], ∀ c,
    L.isSymbol (x ++ [c]) = false
  /-- An opening bracket goes on with the closing one or a star. -/
  openRound : ∀ c, L.isSymbol ['(', c] = true → c = ')' ∨ c = '*'
  /-- A colon goes on with punctuation. -/
  colon : ∀ c, L.isSymbol [':', c] = true → c ∈ [':', ';', '=']
  /-- A caret and two stars go on with an equals sign. -/
  power : ∀ x ∈ [['^'], ['*', '*']], ∀ c, L.isSymbol (x ++ [c]) = true → c = '='
  /-- An operand begins behind opening brackets, commas, colons and slashes. -/
  opens : ∀ s ∈ [Symbol.openRound, .openSquare, .comma, .colon, .operator .divide], L.opensOperand (.symbol s) = true
  /-- None begins behind closing brackets and points. -/
  ends : ∀ s ∈ [Symbol.closeRound, .emptyRound, .closeSquare, .dot], L.opensOperand (.symbol s) = false
  /-- None begins behind a number. -/
  number_ends : ∀ negative sp k, L.number? negative sp = some k → L.opensOperand k = false
  /-- None begins behind a text, a name and a truth value. -/
  value_ends : ∀ k, (∃ t, k = .text t ∨ k = .name t) ∨ k = .keyword .yes ∨ k = .keyword .no → L.opensOperand k = false
  /-- One begins behind both kinds of powers or behind neither. -/
  power_opens : L.opensOperand (.symbol (.operator .differ)) = L.opensOperand (.symbol (.operator .power)) ∧
    L.opensOperand (.symbol (.update .differ)) = L.opensOperand (.symbol (.update .power))

namespace Rules

variable {L : Lexer} (hL : L.Rules) {operand : Bool} {c : Char} {t x y z u : Text}
include hL

/-! ### Kinds of lexemes -/

theorem lexeme?_cons (hblank : isBlank c = false) (hquote : quotes c = false ∨ c = '"')
    (hcomment : ¬ BeginsComment (c :: t)) :
    L.lexeme? operand (c :: t) =
      if c = '"' then L.readText t
      else if isDigit c then L.readNumber false (c :: t)
      else if c = '-' ∧ operand = true ∧ (t.head?.any isDigit) = true then L.readNumber true t
      else if isLetter c || c == '_' then L.readWord (c :: t)
      else L.readSymbol (c :: t) := by
  by_cases hdouble : c = '"'
  · rw [if_pos hdouble, hdouble, hL.text]
  rw [if_neg hdouble]
  by_cases hdigit : isDigit c = true
  · rw [if_pos hdigit, hL.number _ _ _ hdigit]
  rw [if_neg hdigit]
  by_cases hminus : c = '-' ∧ operand = true ∧ (t.head?.any isDigit) = true
  · rw [if_pos hminus]
    obtain ⟨rfl, rfl, hhead⟩ := hminus
    cases t with
    | nil => cases hhead
    | cons d t => exact hL.negative d t hhead
  rw [if_neg hminus]
  by_cases hletter : (isLetter c || c == '_') = true
  · rw [if_pos hletter, hL.word _ _ _ hletter]
  · rw [if_neg hletter]
    refine hL.symbol _ _ _ hblank ?_ (hquote.resolve_right hdouble) hcomment hminus
    simpa [isNameChar, hdigit] using hletter

theorem lexeme?_of_beginsComment (h : BeginsComment x) : ∃ b, ∀ operand, L.lexeme? operand x = some (none, b) := by
  obtain ⟨t, rfl | rfl⟩ := h
  · exact ⟨_, fun operand => hL.line operand t⟩
  · exact ⟨_, fun operand => hL.comment operand t⟩

/-- A text of which something else is read than a skipped lexeme begins no comment. -/
theorem not_beginsComment (h : ∀ b, L.lexeme? operand (x ++ y) ≠ some (none, b)) : ¬ BeginsComment x := by
  intro hx
  have happend : BeginsComment (x ++ y) := by
    obtain ⟨t, rfl | rfl⟩ := hx
    · exact ⟨t ++ y, .inl rfl⟩
    · exact ⟨t ++ y, .inr rfl⟩
  obtain ⟨b, hb⟩ := hL.lexeme?_of_beginsComment happend
  exact h b (hb operand)

omit hL in
theorem before_append (k : Option Token) : before (u ++ y) k = (before u k).map fun r => (r.1, r.2 ++ y) := by
  cases k <;> rfl

/-- What is skipped and no comment is a blank. -/
theorem isBlank_of_lexeme? {b : Text} (hcomment : ¬ BeginsComment (c :: t))
    (h : L.lexeme? operand (c :: t) = some (none, b)) :
    b = t ∧ ∀ operand t, L.lexeme? operand (c :: t) = some (none, t) := by
  by_cases hblank : isBlank c = true
  · rcases hL.blank c hblank with hskip | hnone
    · rw [hskip] at h
      exact ⟨(Prod.mk.inj (Option.some.inj h)).2.symm, hskip⟩
    · rw [hnone] at h
      cases h
  exfalso
  have hbefore : ∀ {rest : Text} {k : Option Token}, before rest k ≠ some (none, b) := by
    intro rest k hk
    obtain ⟨_, -, hnone, -⟩ := before_eq_some.1 hk
    cases hnone
  by_cases hmark : c ∈ ['\x60', '\x27', '#']
  · exact hL.quotation_token operand c t b hmark h
  have hquote : quotes c = false ∨ c = '"' := by
    simp only [List.mem_cons, List.not_mem_nil, or_false, not_or] at hmark
    by_cases hdouble : c = '"'
    · exact .inr hdouble
    · exact .inl (by simp [quotes, hdouble, hmark])
  rw [hL.lexeme?_cons (Bool.eq_false_iff.2 hblank) hquote hcomment] at h
  split_ifs at h
  · obtain ⟨r, -, hr⟩ := Option.bind_eq_some_iff.1 h
    exact hbefore hr
  all_goals exact hbefore h

/-! ### What stands behind a lexeme -/

theorem readSymbol_append (hc : x.getLast? = some c) (hname : isNameChar c = false)
    (hy : ∀ d ∈ y.head?, begins d = true) (hjoins : x = ['?'] → y.head? ≠ some '[') :
    L.readSymbol (x ++ y) = (L.readSymbol x).map fun r => (r.1, r.2 ++ y) := by
  have hstop : ∀ d ∈ y.head?, ∀ p, p ≠ [] → L.isSymbol p = true → L.isSymbol (p ++ [d]) = true → ¬ p = x := by
    intro d hd p hp hsymbol hgoes hpx
    obtain ⟨hnot, hquote, hopen, -, hsquare, -⟩ := hL.goesOn p d hp hsymbol hgoes
    have hbegins := hy d hd
    simp only [begins, isNameChar, Text.isLetter, Bool.or_eq_true, Bool.or_eq_false_iff, beq_iff_eq] at hbegins hnot
    rcases hbegins with (((((hdigit | hcapital) | rfl) | rfl) | rfl) | rfl) | rfl
    · rw [hnot.1.2] at hdigit
      cases hdigit
    · rw [hnot.1.1.1] at hcapital
      cases hcapital
    · exact absurd hnot.1.1.2 (by decide)
    · exact absurd hnot.1.1.2 (by decide)
    · exact hopen rfl
    · exact hjoins (hpx ▸ hsquare rfl) hd
    · exact hquote rfl
  rw [readSymbol, readSymbol, symbolSpan_append_of_begins hc hname hy hstop, before_append]

/-- A text that begins neither a comment nor a quotation is read the same in front of a literal or a name that does not
go on with it. -/
theorem lexeme?_append (hc : x.getLast? = some c) (hname : isNameChar c = false) (hy : ∃ d ∈ y.head?, begins d = true)
    (hjoins : ¬ Joins operand x y) (hquote : ∀ d ∈ x.head?, quotes d = false) (hcomment : ¬ BeginsComment x) :
    L.lexeme? operand (x ++ y) = (L.lexeme? operand x).map fun r => (r.1, r.2 ++ y) := by
  cases x with
  | nil => cases hc
  | cons e x =>
    by_cases hblank : isBlank e = true
    · rcases hL.blank e hblank with hskip | hnone
      · rw [List.cons_append, hskip, hskip, Option.map_some]
      · rw [List.cons_append, hnone, hnone, Option.map_none]
    have hblank := Bool.eq_false_iff.2 hblank
    have hquote := hquote e rfl
    have hdouble : e ≠ '"' := by
      rintro rfl
      cases hquote
    have hcomment' : ¬ BeginsComment (e :: (x ++ y)) :=
      fun h => hcomment ((beginsComment_append (List.cons_ne_nil _ _) hy).1 h)
    have hsign : (e = '-' ∧ operand = true ∧ ((x ++ y).head?.any isDigit) = true) ↔
        (e = '-' ∧ operand = true ∧ (x.head?.any isDigit) = true) := by
      cases x with
      | cons f x => rfl
      | nil =>
        refine ⟨fun ⟨he, hoperand, hhead⟩ => ?_, fun ⟨_, _, hhead⟩ => by cases hhead⟩
        refine absurd (.inr (.inl ⟨hoperand, [], by rw [he], .inr ⟨rfl, ?_⟩⟩)) hjoins
        obtain ⟨d, hd, -⟩ := hy
        obtain ⟨y, rfl⟩ := List.head?_eq_some_iff.1 hd
        exact ⟨d, rfl, hhead⟩
    rw [List.cons_append, hL.lexeme?_cons hblank (.inl hquote) hcomment', hL.lexeme?_cons hblank (.inl hquote) hcomment,
      if_neg hdouble, if_neg hdouble]
    by_cases hdigit : isDigit e = true
    · rw [if_pos hdigit, if_pos hdigit, readNumber, readNumber, ← List.cons_append,
        spelled_append_of_not_joins hc hname ⟨e, rfl, hdigit⟩ hy fun h => hjoins (.inl h), before_append]
    rw [if_neg hdigit, if_neg hdigit, if_congr hsign rfl rfl]
    by_cases hminus : e = '-' ∧ operand = true ∧ (x.head?.any isDigit) = true
    · have hnumber : ¬ NumberJoins x y := fun h => hjoins (.inr (.inl ⟨hminus.2.1, x, by rw [hminus.1], .inl h⟩))
      obtain ⟨f, x, rfl⟩ : ∃ f x', x = f :: x' := by
        refine List.exists_cons_of_ne_nil fun hx => ?_
        simp [hx] at hminus
      have hf : isDigit f = true := hminus.2.2
      rw [if_pos hminus, if_pos hminus, readNumber, readNumber,
        spelled_append_of_not_joins (getLast?_of_cons hc) hname ⟨f, rfl, hf⟩ hy hnumber, before_append]
    rw [if_neg hminus, if_neg hminus, ← List.cons_append]
    split
    · obtain ⟨htake, hdrop, -⟩ := takeWhile_append_of_last (y := y) hc hname
      rw [readWord, readWord, htake, hdrop, before_append]
    · obtain ⟨d, hd, hbegins⟩ := hy
      exact hL.readSymbol_append hc hname (fun d' hd' => Option.mem_unique hd hd' ▸ hbegins) fun hx hhead =>
        hjoins (.inr (.inr (.inl ⟨hx, hhead⟩)))

/-- A quotation is read the same in front of any value that does not go on with it. -/
theorem lexeme?_append_of_quotes {k : Option Token} {e : Char} (he : quotes e = true)
    (h : L.lexeme? operand (e :: x ++ y) = some (k, u ++ y)) (hz : u = [] → ∀ c ∈ z.head?, begins c = true)
    (hjoins : ¬ Joins operand (e :: x) z) (hquote : e = '"' → u = [] → z.head? ≠ some '"') :
    L.lexeme? operand (e :: x ++ z) = some (k, u ++ z) := by
  by_cases hdouble : e = '"'
  · subst hdouble
    rw [List.cons_append, hL.text] at h ⊢
    obtain ⟨⟨a, b⟩, ha, h⟩ := Option.bind_eq_some_iff.1 h
    obtain ⟨k', hk, rfl, hb⟩ := before_eq_some.1 h
    dsimp only at hk hb
    subst hb
    have hx : x = a ++ '"' :: u := List.append_cancel_right (by rw [closing_eq_append ha]; simp)
    have hz : (u ++ z).head? ≠ some '"' := by
      cases u with
      | nil => exact hquote rfl rfl
      | cons d u =>
        have hd := head?_of_closing ha
        exact hd
    have hclosing := closing_append (z := u ++ z) (by decide) ha hz
    rw [readText, hx, List.append_assoc, List.cons_append, hclosing]
    exact before_eq_some.2 ⟨k', hk, rfl, rfl⟩
  · have hmark : e ∈ ['\x60', '\x27', '#'] := by simpa [quotes, hdouble, or_assoc] using he
    refine hL.quotation operand e x y z u k hmark h hz fun hhash hx hhead => hjoins (.inr (.inr (.inr ⟨?_, hhead⟩)))
    rw [hhash, hx]

/-! ### Symbols -/

theorem isSymbol_of_mem {p : Text × Symbol} (h : p ∈ joints) : L.isSymbol p.1 = true := by
  rw [isSymbol, hL.joint p h]
  rfl

theorem lexeme?_joint {m : Symbol} (h : (x, m) ∈ joints) (hz : ∀ c ∈ z.head?, L.isSymbol (x ++ [c]) = false)
    (hcomment : ¬ BeginsComment (x ++ z)) : L.lexeme? operand (x ++ z) = some (some (.symbol m), z) := by
  have htable : ∀ p ∈ joints, (∀ q ∈ p.1.inits, q ≠ [] → q ∈ joints.map Prod.fst) ∧
      p.1 ≠ [] ∧ (p.1.head?.all fun c => isBlank c = false ∧ isNameChar c = false ∧ quotes c = false ∧ c ≠ '-' ∧
        c ≠ '!') = true := by decide
  obtain ⟨hinits, hne, hfirst⟩ := htable _ h
  have hprefixes : ∀ q, q <+: x → q ≠ [] → L.isSymbol ([] ++ q) = true := by
    intro q hq hne
    obtain ⟨p, hp, rfl⟩ := List.mem_map.1 (hinits q ((List.mem_inits _ _).2 hq) hne)
    exact hL.isSymbol_of_mem hp
  obtain ⟨c, w, rfl⟩ := List.exists_cons_of_ne_nil hne
  obtain ⟨hblank, hname, hquote, hminus, hnot⟩ := of_decide_eq_true hfirst
  have hspan : symbolSpan L.isSymbol (c :: w ++ z) = (c :: w, z) := by
    have hne : ∀ t, c :: w ++ z ≠ '!' :: 'i' :: 'n' :: t := fun t ht => hnot (List.cons.inj ht).1
    rw [symbolSpan_of_ne hne]
    exact munch_of_prefixes hprefixes hz
  rw [List.cons_append] at hcomment hspan ⊢
  rw [hL.symbol operand c _ hblank hname hquote hcomment fun h => hminus h.1, readSymbol, hspan, hL.joint _ h]
  rfl

end Rules

end Lexer

end Spreadsheet.Script
