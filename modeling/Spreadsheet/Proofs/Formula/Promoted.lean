import Mathlib.Data.List.Chain
import Spreadsheet.Proofs.Formula.Numerals
import Spreadsheet.Proofs.Script.Lexer

/-!
# The tokens of a promoted script

What promotion does to the lexemes of a script, one after another. A literal keeps its characters
(`closing_promoteLiteral`), `^` becomes `**`, and every other symbol reaches as far as it did unless a star, a slash or an
opening bracket stands in front of `^` (`symbolSpan_promoteRest`). So by the rules of lexers the promoted script has the
tokens of the lexemes with the numbers and powers changed as `Lexeme.promoted` says (`lexFrom_promoteRest`).
-/

namespace Spreadsheet

open Script Script.Token
open Text (isDigit isLetter isBlank)

namespace Formula

variable {g : Bool} {c : Char} {b p s t x y : Text}

/-! ### Literals -/

theorem promoteLiteral_nil : promoteLiteral [] = [] := by simp [promoteLiteral, Text.splitLiteral, promoteRest_nil]

theorem promoteLiteral_close (t : Text) : promoteLiteral ('"' :: t) = '"' :: promoteRest false t := rfl

theorem promoteLiteral_escape (c : Char) (t : Text) :
    promoteLiteral ('\\' :: c :: t) = '\\' :: c :: promoteLiteral t := rfl

theorem promoteLiteral_cons (hquote : c ≠ '"') (hslash : c ≠ '\\') (t : Text) :
    promoteLiteral (c :: t) = c :: promoteLiteral t := by
  rw [promoteLiteral, promoteLiteral, Text.splitLiteral.eq_4 c t hquote fun d u hc => absurd hc hslash]
  rfl

/-- A literal keeps its characters, and the code behind it is promoted. -/
theorem closing_promoteLiteral (t : Text) :
    closing '"' (promoteLiteral t) = (closing '"' t).map fun r => (r.1, promoteRest false r.2) := by
  fun_induction closing '"' t with
  | case1 => rw [promoteLiteral_nil]; rfl
  | case2 => simp [promoteLiteral_close, promoteRest_nil, closing]
  | case3 c hc =>
    have hlast : promoteLiteral [c] = [c] := by
      by_cases hslash : c = '\\'
      · subst hslash
        simp [promoteLiteral, Text.splitLiteral, promoteRest_nil]
      · rw [promoteLiteral_cons hc hslash, promoteLiteral_nil]
    rw [hlast, closing, if_neg hc]
    rfl
  | case4 c d t hcd ih =>
    rcases hcd with rfl | ⟨rfl, rfl⟩
    · rw [promoteLiteral_escape, closing_escape, ih, Option.map_map, Option.map_map]
      rfl
    · rw [promoteLiteral_close, promoteRest_quote, closing_doubled, ih, Option.map_map, Option.map_map]
      rfl
  | case5 d t hnot =>
    rw [promoteLiteral_close]
    refine closing_close (by decide) (head?_promoteRest_ne (by decide) ?_ false)
    exact fun hd => hnot (.inr ⟨rfl, Option.some.inj hd⟩)
  | case6 c d t hnot hc ih =>
    have hslash : c ≠ '\\' := fun h => hnot (.inl h)
    rw [promoteLiteral_cons hc hslash, closing_cons hslash hc, ih, Option.map_map, Option.map_map]
    rfl

/-! ### Symbols -/

/-- Characters that are neither digits nor powers nor quotation marks stay. -/
theorem promoteRest_append (hx : ∀ d ∈ x, isDigit d = false ∧ d ≠ '^' ∧ d ≠ '"')
    (hy : x = [] → ∀ d ∈ y.head?, isDigit d = false) :
    promoteRest g (x ++ y) = x ++ promoteRest (x.getLast?.any glues) y := by
  induction x generalizing g with
  | nil => exact promoteRest_glued g false (hy rfl)
  | cons d x ih =>
    rw [List.forall_mem_cons] at hx
    rw [List.cons_append, promoteRest_cons hx.1.1 hx.1.2.1 hx.1.2.2]
    cases x with
    | nil => rfl
    | cons e x =>
      rw [ih hx.2 nofun, List.getLast?_cons_cons]
      rfl

theorem any_head?_promoteRest {q : Char → Bool} (hstar : q '*' = false) (hpower : q '^' = false) (g : Bool) (t : Text) :
    (promoteRest g t).head?.any q = t.head?.any q := by
  rw [head?_promoteRest, Option.any_map]
  cases t with
  | nil => rfl
  | cons d t =>
    by_cases hd : d = '^'
    · simp [hd, hstar, hpower]
    · simp [hd]

theorem not_beginsComment_promoteRest (hcomment : ¬ BeginsComment (c :: t)) (hjoin : c = '/' → t.head? ≠ some '^') :
    ¬ BeginsComment (promoteRest g (c :: t)) := by
  rintro ⟨w, hw⟩
  obtain ⟨d, hd, hw⟩ : ∃ d, (d = '/' ∨ d = '*') ∧ promoteRest g (c :: t) = '/' :: d :: w :=
    hw.elim (fun hw => ⟨_, .inl rfl, hw⟩) fun hw => ⟨_, .inr rfl, hw⟩
  obtain ⟨u, hu⟩ := exists_of_promoteRest_cons (by decide) hw
  obtain ⟨rfl, rfl⟩ := List.cons.inj hu
  rw [promoteRest_cons rfl (by decide) (by decide)] at hw
  have hhead := head?_promoteRest (glues '/') t
  rw [(List.cons.inj hw).2] at hhead
  obtain ⟨e, he, hed⟩ := Option.map_eq_some_iff.1 hhead.symm
  split at hed
  · next hpower => exact hjoin rfl (hpower ▸ he)
  · obtain ⟨v, rfl⟩ := List.head?_eq_some_iff.1 he
    rw [hed] at hcomment
    exact hcomment ⟨v, hd.imp (by rintro rfl; rfl) (by rintro rfl; rfl)⟩

/-- Symbols that would go on with the first star of a power, or begin a comment with it. -/
def meetsPower : List Text := [['*'], ['/'], ['(']]

section Symbol

variable {L : Lexer} (hL : L.Rules) (hname : isNameChar c = false) (hpower : c ≠ '^') (hquote : c ≠ '"')
include hL hname hpower hquote

/-- A symbol has neither digits nor quotation marks, and `^` only as its first character. -/
theorem plain_of_munch (t : Text) :
    ∀ d ∈ (munch L.isSymbol [] (c :: t)).1, isDigit d = false ∧ d ≠ '^' ∧ d ≠ '"' := by
  have hgoes : ∀ x d, L.isSymbol x = true → L.isSymbol (x ++ [d]) = true → isDigit d = false ∧ d ≠ '^' ∧ d ≠ '"' := by
    intro x d hx hd
    have hne : x ≠ [] := by
      rintro rfl
      rw [Lexer.isSymbol, hL.symbol_nil] at hx
      cases hx
    obtain ⟨hnot, hquote, -, hpower, -⟩ := hL.goesOn x d hne hx hd
    exact ⟨isDigit_of_not_isNameChar hnot, hpower, hquote⟩
  intro d hd
  rw [munch] at hd
  split at hd
  · next hc =>
    rcases mem_munch hgoes hc d hd with hd | hd
    · obtain rfl := List.mem_singleton.1 hd
      exact ⟨isDigit_of_not_isNameChar hname, hpower, hquote⟩
    · exact hd
  · cases hd

theorem plain_of_symbolSpan (t : Text) : ∀ d ∈ (symbolSpan L.isSymbol (c :: t)).1, isDigit d = false := by
  by_cases hin : ∃ u, c :: t = '!' :: 'i' :: 'n' :: u
  · obtain ⟨u, hu⟩ := hin
    rw [hu, symbolSpan]
    split
    · exact (by decide : ∀ d ∈ ['!'], isDigit d = false)
    · exact (by decide : ∀ d ∈ ['!', 'i', 'n'], isDigit d = false)
  · rw [symbolSpan_of_ne fun u hu => hin ⟨u, hu⟩]
    exact fun d hd => (plain_of_munch hL hname hpower hquote t d hd).1

variable (hapart : [c] ∈ meetsPower → t.head? ≠ some '^')
include hapart

theorem munch_promoteRest (h : munch L.isSymbol [] (c :: t) = (p, b)) :
    munch L.isSymbol [] (promoteRest g (c :: t)) = (p, promoteRest (p.getLast?.any glues) b) := by
  have hsplit : p ++ b = c :: t := by
    have := munch_append L.isSymbol [] (c :: t)
    rwa [h] at this
  have hplain := plain_of_munch hL hname hpower hquote t
  rw [h] at hplain
  have hb : p = [] → b = c :: t := by
    rintro rfl
    exact hsplit
  rw [← hsplit, promoteRest_append hplain fun hp => by
    rw [hb hp]
    exact fun d hd => Option.some.inj hd ▸ isDigit_of_not_isNameChar hname]
  have hread : munch L.isSymbol [] (p ++ b) = ([] ++ p, b) := by rw [hsplit, h]; rfl
  refine munch_append_of_stops hread fun d hd => ?_
  rw [head?_promoteRest] at hd
  obtain ⟨e, he, rfl⟩ := Option.map_eq_some_iff.1 hd
  rw [List.nil_append]
  split
  · next hcaret =>
    -- only a star and an opening bracket go on with a star
    refine Bool.eq_false_iff.2 fun hstar => ?_
    have hne : p ≠ [] := fun hp => by
      rw [hb hp] at he
      exact hpower ((Option.some.inj he).trans hcaret)
    have hsymbol : L.isSymbol p = true := (known_of_munch h).resolve_left hne
    have hone : ∀ d, [d] ∈ meetsPower → p ≠ [d] := by
      rintro d hd rfl
      obtain ⟨rfl, rfl⟩ := List.cons.inj hsplit
      exact hapart hd (hcaret ▸ he)
    rcases (hL.goesOn p '*' hne hsymbol hstar).2.2.2.2.2 rfl with hp | hp
    · exact hone '*' (by decide) hp
    · exact hone '(' (by decide) hp
  · exact munch_stops h e he

theorem symbolSpan_promoteRest : symbolSpan L.isSymbol (promoteRest g (c :: t)) =
    ((symbolSpan L.isSymbol (c :: t)).1, promoteRest ((symbolSpan L.isSymbol (c :: t)).1.getLast?.any glues)
      (symbolSpan L.isSymbol (c :: t)).2) := by
  by_cases hin : ∃ u, c :: t = '!' :: 'i' :: 'n' :: u
  · obtain ⟨u, hu⟩ := hin
    rw [hu, promoteRest_cons rfl (by decide) (by decide), show glues '!' = false from rfl,
      promoteRest_cons rfl (by decide) (by decide), show glues 'i' = true from rfl,
      promoteRest_cons rfl (by decide) (by decide), show glues 'n' = true from rfl, symbolSpan, symbolSpan,
      any_head?_promoteRest rfl rfl]
    split
    · rw [promoteRest_cons rfl (by decide) (by decide), promoteRest_cons rfl (by decide) (by decide)]
      rfl
    · rfl
  · have hin' : ∀ w, promoteRest g (c :: t) ≠ '!' :: 'i' :: 'n' :: w := by
      intro w hw
      obtain ⟨u, hu⟩ := exists_of_promoteRest_cons (by decide) hw
      rw [hu, promoteRest_cons rfl (by decide) (by decide)] at hw
      obtain ⟨v, rfl⟩ := exists_of_promoteRest_cons (by decide) (List.cons.inj hw).2
      rw [promoteRest_cons rfl (by decide) (by decide)] at hw
      obtain ⟨v, rfl⟩ := exists_of_promoteRest_cons (by decide) (List.cons.inj (List.cons.inj hw).2).2
      exact hin ⟨v, hu⟩
    rw [symbolSpan_of_ne hin', symbolSpan_of_ne fun u hu => hin ⟨u, hu⟩]
    exact munch_promoteRest hL hname hpower hquote hapart rfl

end Symbol

end Formula

/-! ### Lexemes -/

namespace Script.Lexeme

open Formula (glues promotedNumber endsInSigned endsInSigned_of_glues)

/-- The lexeme is no back-quoted text, no character and no comment, and begins with no hash unless it opens a map. -/
def isPlain (l : Lexeme) : Bool :=
  l.spelling.head?.all fun c => c != '\x60' && c != '\x27' && (c != '#' || l.spelling == ['#', '\x7b']) &&
    (l.token.isSome || isBlank c)

/-- The tokens of a lexeme behind promotion, given whether digits are glued to what stands in front of it and the
character behind it. What stands in front of a minus sign is not looked at. -/
def promoted (glued : Bool) (next : Option Char) (l : Lexeme) : List Token :=
  match l.token with
  | none => []
  | some k =>
    match l.spelling with
    | ['^'] => [.symbol (.operator .power)]
    | ['^', '='] => [.symbol (.update .power)]
    | '-' :: x => promotedNumber true false x next k
    | x => promotedNumber false glued x next k

section Promoted

variable {negative glued : Bool} {next : Option Char} {c : Char} {k : Token} {x : Text}

theorem promoted_of_ne (hpower : c ≠ '^') (hminus : c ≠ '-') :
    promoted glued next ⟨c :: x, some k⟩ = promotedNumber false glued (c :: x) next k := by
  unfold promoted
  dsimp only
  split
  · next heq => exact absurd (List.cons.inj heq).1 hpower
  · next heq => exact absurd (List.cons.inj heq).1 hpower
  · next heq => exact absurd (List.cons.inj heq).1 hminus
  · rfl

theorem promotedNumber_of_last (h : x.getLast?.any isDigit = false) : promotedNumber negative glued x next k = [k] := by
  rw [promotedNumber, if_neg, endsInSigned, h]
  · rfl
  · rintro ⟨hne, hdigits, -⟩
    rw [List.getLast?_eq_some_getLast hne, Option.any_some,
      List.all_eq_true.1 hdigits _ (List.getLast_mem hne)] at h
    cases h

/-- What does not end in a digit is no number. -/
theorem promoted_of_last (hpower : c ≠ '^') (h : (c :: x).getLast?.any isDigit = false) :
    promoted glued next ⟨c :: x, some k⟩ = [k] := by
  by_cases hminus : c = '-'
  · subst hminus
    refine promotedNumber_of_last ?_
    cases x with
    | nil => rfl
    | cons d x => rwa [List.getLast?_cons_cons] at h
  · rw [promoted_of_ne hpower hminus, promotedNumber_of_last h]

/-- A word is no number. -/
theorem promoted_of_word (hc : (isLetter c || c == '_') = true) (h : ∀ d ∈ c :: x, glues d = true) :
    promoted glued next ⟨c :: x, some k⟩ = [k] := by
  have hne : ∀ d, isNameChar d = false → c ≠ d := fun d => Text.ne_of_kind (isNameChar_of_startsWord hc)
  rw [promoted_of_ne (hne '^' rfl) (hne '-' rfl), promotedNumber, if_neg, endsInSigned_of_glues h]
  · rfl
  · rintro ⟨-, hdigits, -⟩
    have := List.all_eq_true.1 hdigits c (by simp)
    rw [isDigit_of_startsWord hc] at this
    cases this

end Promoted

end Script.Lexeme

namespace Formula

/-- The tokens of lexemes behind promotion. -/
def promotedTokens (glued : Bool) : List Lexeme → List Token
  | [] => []
  | l :: ls =>
    l.promoted glued (ls.head?.bind (·.spelling.head?)) ++ promotedTokens (l.spelling.getLast?.any glues) ls

/-- The lexemes keep their places when the script is promoted. -/
structure Promotable (ls : Lexemes) : Prop where
  plain : ∀ l ∈ ls.read, l.isPlain = true
  /-- No star, no slash and no opening bracket stands right in front of a power. -/
  apart : ls.read.IsChain fun l l' => l.spelling ∈ meetsPower → l'.spelling.head? ≠ some '^'
  unread : ls.unread.head? ≠ some '\x60' ∧ ls.unread.head? ≠ some '\x27' ∧ ls.unread.head? ≠ some '#'

/-! ### One lexeme -/

section Step

variable {L : Lexer} {operand : Bool}

theorem ReadsAs.lexFrom {r : Option (Option Token × Text)} {ks : List Token} {w z : Text} (h : ReadsAs L r ks z)
    (hw : L.lexeme? operand w = r) : L.lexFrom operand w = (L.lexFrom false z).map (ks ++ ·) := by
  obtain ⟨k, ks', tail, rfl, hk, rfl, htail⟩ := h
  rw [Lexer.lexFrom_token hw, hk, htail, Option.map_map]
  rfl

theorem exists_promoteRest_cons (hpower : c ≠ '^') (g : Bool) (t : Text) : ∃ w, promoteRest g (c :: t) = c :: w := by
  refine List.head?_eq_some_iff.1 ?_
  rw [head?_promoteRest]
  exact congrArg some (if_neg hpower)

theorem ne_power_of_isNameChar (h : isNameChar c = true) : c ≠ '^' := Text.ne_of_kind h rfl

/-- The tokens of a text behind promotion, from its first lexeme on. -/
def Steps (L : Lexer) (g operand : Bool) (l : Lexeme) (b : Text) : Prop :=
  L.lexFrom operand (promoteRest g (l.spelling ++ b)) =
    (L.lexFrom (L.operandAfter operand l.token) (promoteRest (l.spelling.getLast?.any glues) b)).map
      (l.promoted g b.head? ++ ·)

theorem Steps.of_kept {k : Token} (hk : Lexeme.promoted g b.head? ⟨x, some k⟩ = [k])
    (hw : L.lexeme? operand (promoteRest g (x ++ b)) = some (some k, promoteRest (x.getLast?.any glues) b)) :
    Steps L g operand ⟨x, some k⟩ b := by
  rw [Steps, Lexer.lexFrom_token hw, hk]
  rfl

variable (hL : L.Rules)
include hL

/-! In front of promoted text a lexeme of every kind is looked for where it was. -/

theorem lexeme?_promoteRest_text (operand : Bool) (t : Text) : L.lexeme? operand (promoteRest g ('"' :: t)) =
    (L.readText t).map fun r => (r.1, promoteRest false r.2) := by
  rw [promoteRest_quote, hL.text, Lexer.readText, Lexer.readText, closing_promoteLiteral]
  cases closing '"' t with
  | none => rfl
  | some r =>
    dsimp only [Option.map_some, Option.bind_some]
    cases L.text? r.1 <;> rfl

theorem lexeme?_promoteRest_digits (hc : isDigit c = true) :
    L.lexeme? operand (promoteRest g (c :: t)) = L.readNumber false (promoteRest g (c :: t)) := by
  obtain ⟨w, hw⟩ := exists_promoteRest_cons (ne_power_of_isNameChar (isNameChar_of_isDigit hc)) g t
  rw [hw, hL.number operand c w hc]

theorem lexeme?_promoteRest_negative (hc : isDigit c = true) :
    L.lexeme? true (promoteRest g ('-' :: c :: t)) = L.readNumber true (promoteRest false (c :: t)) := by
  obtain ⟨w, hw⟩ := exists_promoteRest_cons (ne_power_of_isNameChar (isNameChar_of_isDigit hc)) false t
  rw [promoteRest_cons rfl (by decide) (by decide), show glues '-' = false from rfl, hw, hL.negative c w hc]

theorem lexeme?_promoteRest_word (operand : Bool) (hc : (isLetter c || c == '_') = true) :
    L.lexeme? operand (promoteRest g (c :: t)) = (L.readWord (c :: t)).map fun r => (r.1, promoteRest true r.2) := by
  have hglued : promoteRest g (c :: t) = promoteRest true (c :: t) :=
    promoteRest_glued g true fun d hd => Option.some.inj hd ▸ isDigit_of_startsWord hc
  obtain ⟨w, hw⟩ := exists_promoteRest_cons (ne_power_of_isNameChar (isNameChar_of_startsWord hc)) true t
  obtain ⟨htake, hdrop⟩ := span_promoteRest (p := isNameChar) (fun d => glues_of_isNameChar) (c :: t)
  rw [hglued, hw, hL.word operand c w hc, Lexer.readWord, ← hw, htake, hdrop, Lexer.readWord]
  cases L.word? ((c :: t).takeWhile isNameChar) <;> rfl

theorem lexeme?_promoteRest_symbol (hblank : isBlank c = false) (hname : isNameChar c = false)
    (hquote : quotes c = false) (hcomment : ¬ BeginsComment (c :: t))
    (hminus : ¬ (c = '-' ∧ operand = true ∧ (t.head?.any isDigit) = true)) (hpower : c ≠ '^')
    (hapart : [c] ∈ meetsPower → t.head? ≠ some '^') : L.lexeme? operand (promoteRest g (c :: t)) =
      (L.readSymbol (c :: t)).map fun r =>
        (r.1, promoteRest ((symbolSpan L.isSymbol (c :: t)).1.getLast?.any glues) r.2) := by
  have hdouble := ne_of_not_quotes hquote
  have hdigit := isDigit_of_not_isNameChar hname
  have hspan := symbolSpan_promoteRest (g := g) hL hname hpower hdouble hapart
  have hcomment' := not_beginsComment_promoteRest (g := g) hcomment fun hc => hapart (hc ▸ by decide)
  have hminus' : ¬ (c = '-' ∧ operand = true ∧ ((promoteRest (glues c) t).head?.any isDigit) = true) := by
    rwa [any_head?_promoteRest rfl rfl]
  rw [promoteRest_cons hdigit hpower hdouble] at hspan hcomment' ⊢
  rw [hL.symbol operand c _ hblank hname hquote hcomment' hminus', Lexer.readSymbol, hspan, Lexer.readSymbol]
  cases L.symbol? (symbolSpan L.isSymbol (c :: t)).1 <;> rfl

/-- What `^` is read as, and what its promotion is read as. -/
theorem lexeme?_power (operand : Bool) (t : Text) : ∃ k k' x b,
    (x = ['^'] ∧ k = .operator .differ ∧ k' = .operator .power ∨ x = ['^', '='] ∧ k = .update .differ ∧ k' = .update .power) ∧
      '^' :: t = x ++ b ∧ L.lexeme? operand ('^' :: t) = some (some (.symbol k), b) ∧
      L.lexeme? operand ('*' :: '*' :: promoteRest false t) = some (some (.symbol k'), promoteRest false b) := by
  have hread {x : Text} {m : Symbol} {z : Text} (h : (x, m) ∈ Lexer.joints) (hx : x.head? ≠ some '/')
      (hz : ∀ c ∈ z.head?, L.isSymbol (x ++ [c]) = false) : L.lexeme? operand (x ++ z) = some (some (.symbol m), z) := by
    refine hL.lexeme?_joint h hz ?_
    have hne : ∀ p ∈ Lexer.joints, p.1 ≠ [] := by decide
    obtain ⟨c, w, rfl⟩ := List.exists_cons_of_ne_nil (hne _ h)
    exact not_beginsComment_of_ne fun hc => hx (congrArg some hc)
  by_cases hassign : t.head? = some '='
  · obtain ⟨u, rfl⟩ := List.head?_eq_some_iff.1 hassign
    refine ⟨_, _, ['^', '='], u, .inr ⟨rfl, rfl, rfl⟩, rfl, ?_, ?_⟩
    · exact hread (x := ['^', '=']) (by decide) (by decide) fun c _ => hL.closes _ (by decide) c
    · rw [promoteRest_cons rfl (by decide) (by decide)]
      exact hread (x := ['*', '*', '=']) (by decide) (by decide) fun c _ => hL.closes _ (by decide) c
  · have hstops {x z : Text} (hx : x ∈ [['^'], ['*', '*']]) (hz : z.head? ≠ some '=') :
        ∀ c ∈ z.head?, L.isSymbol (x ++ [c]) = false :=
      fun c hc => Bool.eq_false_iff.2 fun hgoes => hz (hL.power x hx c hgoes ▸ hc)
    refine ⟨_, _, ['^'], t, .inl ⟨rfl, rfl, rfl⟩, rfl, ?_, ?_⟩
    · exact hread (x := ['^']) (by decide) (by decide) (hstops (by decide) hassign)
    · exact hread (x := ['*', '*']) (by decide) (by decide)
        (hstops (by decide) (head?_promoteRest_ne (by decide) hassign false))

/-- A symbol in front of a power is a lexeme of its own. -/
theorem lexeme?_before_power {m : Symbol} (h : ([c], m) ∈ Lexer.joints) (t : Text) :
    L.lexeme? operand (c :: '^' :: t) = some (some (.symbol m), '^' :: t) := by
  refine hL.lexeme?_joint (x := [c]) h (fun d hd => ?_) ?_
  · obtain rfl := Option.some.inj hd
    refine Bool.eq_false_iff.2 fun hgoes => ?_
    exact (hL.goesOn [c] '^' (List.cons_ne_nil _ _) (hL.isSymbol_of_mem h) hgoes).2.2.2.1 rfl
  · rintro ⟨u, hu | hu⟩ <;> cases hu

theorem lexeme?_meetsPower (operand : Bool) (hc : [c] ∈ meetsPower) (t : Text) :
    ∃ k, L.lexeme? operand (c :: '^' :: t) = some (k, '^' :: t) := by
  have htable : ∀ x ∈ meetsPower, ∃ p ∈ Lexer.joints, p.1 = x := by decide
  obtain ⟨⟨_, m⟩, hp, rfl⟩ := htable [c] hc
  exact ⟨_, lexeme?_before_power hL hp t⟩

theorem steps_blank {k : Option Token} (hblank : isBlank c = true)
    (h : L.lexeme? operand (c :: (x ++ b)) = some (k, b)) : Steps L g operand ⟨c :: x, k⟩ b := by
  rcases hL.blank c hblank with hskip | hnone
  · rw [hskip] at h
    obtain ⟨rfl, hx⟩ := Prod.mk.inj (Option.some.inj h)
    obtain rfl : x = [] := List.append_cancel_right hx
    have hdigit := isDigit_of_not_isWord (isWord_of_isBlank hblank)
    rw [Steps, List.singleton_append,
      promoteRest_cons hdigit (Text.ne_of_kind hblank (by decide)) (Text.ne_of_kind hblank (by decide)),
      Lexer.lexFrom_skip (hskip operand _)]
    simp [Lexeme.promoted, Lexer.operandAfter]
  · rw [hnone] at h
    cases h

theorem steps_text {k : Option Token} (h : L.readText (x ++ b) = some (k, b)) : Steps L g operand ⟨'"' :: x, k⟩ b := by
  have hread := lexeme?_promoteRest_text (g := g) hL operand (x ++ b)
  rw [h] at hread
  obtain ⟨⟨a, b'⟩, ha, h⟩ := Option.bind_eq_some_iff.1 h
  obtain ⟨k, -, rfl, hb⟩ := before_eq_some.1 h
  have hx : x = a ++ ['"'] := by
    have hsplit := closing_eq_append ha
    rw [show b' = b from hb.symm, ← List.singleton_append, ← List.append_assoc] at hsplit
    exact List.append_cancel_right hsplit
  have hlast : ('"' :: x).getLast? = some '"' := by rw [hx, ← List.cons_append, List.getLast?_concat]
  refine .of_kept (Lexeme.promoted_of_last (by decide) (by rw [hlast]; rfl)) ?_
  rw [List.cons_append, hread, hlast]
  rfl

theorem steps_digits {k : Option Token} (hc : isDigit c = true) (h : L.readNumber false (c :: (x ++ b)) = some (k, b)) :
    Steps L g operand ⟨c :: x, k⟩ b := by
  obtain ⟨k, hk, rfl, hb⟩ := before_eq_some.1 h
  have hread := readsAs_number (g := g) (x := c :: x) hL hc hk (by rw [← hb]; rfl)
  have hne : ∀ d, isDigit d = false → c ≠ d := fun d hd => Text.ne_of_kind hc hd
  rw [← hb] at hread
  rw [Steps, Lexeme.promoted_of_ne (hne '^' rfl) (hne '-' rfl),
    show L.operandAfter operand (some k) = false from hL.number_ends _ _ _ hk]
  exact hread.lexFrom (lexeme?_promoteRest_digits hL hc)

theorem steps_minus {k : Option Token} (hc : isDigit c = true) (h : L.readNumber true (c :: (x ++ b)) = some (k, b)) :
    Steps L g true ⟨'-' :: c :: x, k⟩ b := by
  obtain ⟨k, hk, rfl, hb⟩ := before_eq_some.1 h
  have hread := readsAs_number (g := false) (x := c :: x) hL hc hk (by rw [← hb]; rfl)
  rw [← hb] at hread
  rw [Steps, show L.operandAfter true (some k) = false from hL.number_ends _ _ _ hk, List.getLast?_cons_cons]
  exact hread.lexFrom (lexeme?_promoteRest_negative hL hc)

theorem steps_word {k : Option Token} (hc : (isLetter c || c == '_') = true)
    (h : L.readWord (c :: (x ++ b)) = some (k, b)) : Steps L g operand ⟨c :: x, k⟩ b := by
  have hread := lexeme?_promoteRest_word (g := g) (t := x ++ b) hL operand hc
  rw [h] at hread
  obtain ⟨k, -, rfl, hb⟩ := before_eq_some.1 h
  have hspelling : c :: x = (c :: (x ++ b)).takeWhile isNameChar := by
    have hsplit := List.takeWhile_append_dropWhile (p := isNameChar) (l := c :: (x ++ b))
    rw [← hb] at hsplit
    exact (List.append_cancel_right hsplit).symm
  have hglues : ∀ d ∈ c :: x, glues d = true := fun d hd =>
    glues_of_isNameChar (List.mem_takeWhile_imp (hspelling ▸ hd))
  refine .of_kept (Lexeme.promoted_of_word hc hglues) ?_
  have hlast : (c :: x).getLast?.any glues = true := any_getLast?_of_glues [] (List.cons_ne_nil c x) hglues
  rw [List.cons_append, hread, hlast]
  rfl

theorem steps_map (b : Text) {k : Option Token}
    (h : L.lexeme? operand ('#' :: '\x7b' :: b) = some (k, b)) : Steps L g operand ⟨['#', '\x7b'], k⟩ b := by
  rw [hL.map] at h
  obtain ⟨rfl, -⟩ := Prod.mk.inj (Option.some.inj h)
  refine .of_kept (Lexeme.promoted_of_last (by decide) rfl) ?_
  rw [List.cons_append, List.singleton_append, promoteRest_cons rfl (by decide) (by decide),
    promoteRest_cons rfl (by decide) (by decide), hL.map]
  rfl

theorem steps_power {k : Option Token} (h : L.lexeme? operand ('^' :: (x ++ b)) = some (k, b)) :
    Steps L g operand ⟨'^' :: x, k⟩ b := by
  obtain ⟨m, m', x', b', hm, hx', hread, hpromoted⟩ := lexeme?_power hL operand (x ++ b)
  rw [h] at hread
  obtain ⟨rfl, rfl⟩ := Prod.mk.inj (Option.some.inj hread)
  obtain rfl : '^' :: x = x' := List.append_cancel_right hx'
  rw [Steps, List.cons_append, promoteRest_power, Lexer.lexFrom_token hpromoted]
  obtain ⟨hpower, hupdate⟩ := hL.power_opens
  rcases hm with ⟨hx, rfl, rfl⟩ | ⟨hx, rfl, rfl⟩
  · rw [hx, Lexer.operandAfter, hpower]
    rfl
  · rw [hx, Lexer.operandAfter, hupdate]
    rfl

theorem steps_symbol {k : Option Token} (hblank : isBlank c = false) (hname : isNameChar c = false)
    (hquote : quotes c = false) (hcomment : ¬ BeginsComment (c :: (x ++ b)))
    (hminus : ¬ (c = '-' ∧ operand = true ∧ ((x ++ b).head?.any isDigit) = true)) (hpower : c ≠ '^')
    (hapart : [c] ∈ meetsPower → (x ++ b).head? ≠ some '^') (h : L.readSymbol (c :: (x ++ b)) = some (k, b)) :
    Steps L g operand ⟨c :: x, k⟩ b := by
  have hread := lexeme?_promoteRest_symbol (g := g) hL hblank hname hquote hcomment hminus hpower hapart
  rw [h] at hread
  obtain ⟨k, hk, rfl, hb⟩ := before_eq_some.1 h
  have hspelling : (symbolSpan L.isSymbol (c :: (x ++ b))).1 = c :: x := by
    have hsplit := symbolSpan_append L.isSymbol (c :: (x ++ b))
    rw [← hb] at hsplit
    exact List.append_cancel_right hsplit
  have hlast : (c :: x).getLast?.any isDigit = false := by
    have hdigit := plain_of_symbolSpan hL hname hpower (ne_of_not_quotes hquote) (x ++ b)
    rw [hspelling] at hdigit
    rw [List.getLast?_eq_some_getLast (List.cons_ne_nil c x)]
    exact hdigit _ (List.getLast_mem (List.cons_ne_nil c x))
  refine .of_kept (Lexeme.promoted_of_last hpower hlast) ?_
  rw [List.cons_append, hread, hspelling]
  rfl

/-- One lexeme of a script, whatever it is. -/
theorem steps_lexeme {k : Option Token} (h : L.lexeme? operand (c :: (x ++ b)) = some (k, b))
    (hplain : Lexeme.isPlain ⟨c :: x, k⟩ = true) (hjoin : c :: x ∈ meetsPower → b.head? ≠ some '^') :
    Steps L g operand ⟨c :: x, k⟩ b := by
  obtain ⟨hback, hsingle, hhash, hkind⟩ : c ≠ '\x60' ∧ c ≠ '\x27' ∧ (c ≠ '#' ∨ c :: x = ['#', '\x7b']) ∧
      (k.isSome = true ∨ isBlank c = true) := by
    simpa [Lexeme.isPlain, and_assoc] using hplain
  by_cases hblank : isBlank c = true
  · exact steps_blank hL hblank h
  by_cases hmap : c :: x = ['#', '\x7b']
  · obtain ⟨rfl, rfl⟩ := List.cons.inj hmap
    exact steps_map hL b h
  have hcomment : ¬ BeginsComment (c :: (x ++ b)) := fun hbegins => by
    obtain ⟨b', hb'⟩ := hL.lexeme?_of_beginsComment hbegins
    obtain ⟨rfl, -⟩ := Prod.mk.inj (Option.some.inj (h.symm.trans (hb' operand)))
    exact hkind.elim (fun hnone => by cases hnone) hblank
  have hapart : [c] ∈ meetsPower → (x ++ b).head? ≠ some '^' := by
    intro hc hhead
    obtain ⟨u, hu⟩ := List.head?_eq_some_iff.1 hhead
    obtain ⟨k', hk'⟩ := lexeme?_meetsPower hL operand hc u
    rw [hu, hk'] at h
    obtain ⟨-, rfl⟩ := Prod.mk.inj (Option.some.inj h)
    obtain rfl : x = [] := List.append_cancel_right hu
    exact hjoin hc rfl
  have hquote : quotes c = false ∨ c = '"' := by
    by_cases hdouble : c = '"'
    · exact .inr hdouble
    · exact .inl (by simp [quotes, hdouble, hback, hsingle, hhash.resolve_right hmap])
  by_cases hpower : c = '^'
  · subst hpower
    exact steps_power hL h
  -- one case for every other kind of lexeme
  rw [hL.lexeme?_cons (Bool.eq_false_iff.2 hblank) hquote hcomment] at h
  split_ifs at h with hdouble hdigit hminus hletter
  · subst hdouble
    exact steps_text hL h
  · exact steps_digits hL hdigit h
  · obtain ⟨rfl, rfl, hhead⟩ := hminus
    cases x with
    | nil =>
      -- a number takes its first digit
      obtain ⟨_, -, -, hb⟩ := before_eq_some.1 h
      cases b with
      | nil => cases hhead
      | cons d b =>
        have hlength := (suffix_spelled hhead b).length_le
        rw [← show d :: b = (spelled (d :: b)).2 from hb] at hlength
        exact absurd hlength (Nat.not_succ_le_self _)
    | cons d x => exact steps_minus hL hhead h
  · exact steps_word hL hletter h
  · refine steps_symbol hL (Bool.eq_false_iff.2 hblank) ?_ (hquote.resolve_right hdouble) hcomment hminus hpower hapart h
    simpa [isNameChar, hdigit] using hletter

/-- What is malformed stays so. -/
theorem lexFrom_promoteRest_none (h : L.lexeme? operand (c :: t) = none)
    (hplain : c ≠ '\x60' ∧ c ≠ '\x27' ∧ c ≠ '#') : L.lexFrom operand (promoteRest g (c :: t)) = none := by
  suffices hnone : L.lexeme? operand (promoteRest g (c :: t)) = none by
    obtain ⟨d, w, hw⟩ : ∃ d w, promoteRest g (c :: t) = d :: w := by
      refine List.exists_cons_of_ne_nil fun hnil => ?_
      have hhead := head?_promoteRest g (c :: t)
      rw [hnil] at hhead
      cases hhead
    rw [hw] at hnone ⊢
    exact Lexer.lexFrom_of_lexeme?_none hnone
  by_cases hblank : isBlank c = true
  · have hdigit := isDigit_of_not_isWord (isWord_of_isBlank hblank)
    rw [promoteRest_cons hdigit (Text.ne_of_kind hblank (by decide)) (Text.ne_of_kind hblank (by decide))]
    rcases hL.blank c hblank with hskip | hnone
    · rw [hskip] at h
      cases h
    · exact hnone operand _
  have hcomment : ¬ BeginsComment (c :: t) := fun hbegins => by
    obtain ⟨b, hb⟩ := hL.lexeme?_of_beginsComment hbegins
    rw [hb] at h
    cases h
  have hapart : [c] ∈ meetsPower → t.head? ≠ some '^' := by
    intro hc hhead
    obtain ⟨u, rfl⟩ := List.head?_eq_some_iff.1 hhead
    obtain ⟨k, hk⟩ := lexeme?_meetsPower hL operand hc u
    rw [hk] at h
    cases h
  have hpower : c ≠ '^' := by
    rintro rfl
    obtain ⟨_, _, _, _, -, -, hread, -⟩ := lexeme?_power hL operand t
    rw [hread] at h
    cases h
  have hquote : quotes c = false ∨ c = '"' := by
    by_cases hdouble : c = '"'
    · exact .inr hdouble
    · exact .inl (by simp [quotes, hdouble, hplain])
  -- one case for every other kind of lexeme, none of which is there
  rw [hL.lexeme?_cons (Bool.eq_false_iff.2 hblank) hquote hcomment] at h
  split_ifs at h with hdouble hdigit hminus hletter
  · subst hdouble
    rw [lexeme?_promoteRest_text hL, h]
    rfl
  · rw [lexeme?_promoteRest_digits hL hdigit]
    exact number?_promoteRest_none hL hdigit (Option.map_eq_none_iff.1 h)
  · obtain ⟨rfl, rfl, hhead⟩ := hminus
    cases t with
    | nil => cases hhead
    | cons d t =>
      rw [lexeme?_promoteRest_negative hL hhead]
      exact number?_promoteRest_none hL hhead (Option.map_eq_none_iff.1 h)
  · rw [lexeme?_promoteRest_word hL operand hletter, h]
    rfl
  · rw [lexeme?_promoteRest_symbol hL (Bool.eq_false_iff.2 hblank) (by simpa [isNameChar, hdigit] using hletter)
      (hquote.resolve_right hdouble) hcomment hminus hpower hapart, h]
    rfl

end Step

/-! ### All lexemes -/

section Run

variable {L : Lexer}

theorem head?_lexemesFrom (operand : Bool) (s : Text) :
    s.head? =
      ((L.lexemesFrom operand s).read.head?.bind (·.spelling.head?)).or (L.lexemesFrom operand s).unread.head? := by
  fun_cases Lexer.lexemesFrom L operand s with
  | case1 => rfl
  | case2 => rfl
  | case3 c t k rest h _ behind =>
    obtain ⟨hne, hsplit⟩ := Lexer.take_of_lexeme? h
    obtain ⟨d, x, hx⟩ := List.exists_cons_of_ne_nil hne
    rw [hx] at hsplit
    obtain ⟨rfl, -⟩ := List.cons.inj hsplit
    rw [List.head?_cons, List.head?_cons, Option.bind_some, hx]
    rfl

variable (hL : L.Rules)
include hL

theorem head?_unread_ne_power (operand : Bool) (s : Text) : (L.lexemesFrom operand s).unread.head? ≠ some '^' := by
  fun_induction Lexer.lexemesFrom L operand s with
  | case1 =>
    intro hc
    cases hc
  | case2 operand c t h =>
    intro hc
    obtain rfl : c = '^' := Option.some.inj hc
    obtain ⟨_, _, _, _, -, -, hread, -⟩ := lexeme?_power hL operand t
    rw [hread] at h
    cases h
  | case3 operand c t k rest h _ behind ih => exact ih

/-- The tokens of a promoted text are those of its lexemes, promoted. -/
theorem lexFrom_promoteRest (operand : Bool) (s : Text) (h : Promotable (L.lexemesFrom operand s)) (g : Bool) :
    L.lexFrom operand (promoteRest g s) =
      if (L.lexemesFrom operand s).unread = [] then some (promotedTokens g (L.lexemesFrom operand s).read) else none := by
  fun_induction Lexer.lexemesFrom L operand s generalizing g with
  | case1 =>
    rw [promoteRest_nil, Lexer.lexFrom_nil]
    rfl
  | case2 operand c t hnone =>
    rw [if_neg (List.cons_ne_nil c t)]
    exact lexFrom_promoteRest_none hL hnone (by simpa using h.unread)
  | case3 operand c t k rest hk _ behind ih =>
    obtain ⟨hplain, hapart, hunread⟩ := h
    rw [List.forall_mem_cons] at hplain
    have hhead := head?_lexemesFrom (L := L) (L.operandAfter operand k) rest
    obtain ⟨hne, hsplit⟩ := Lexer.take_of_lexeme? hk
    generalize (c :: t).take ((c :: t).length - rest.length) = x at *
    obtain ⟨d, x, rfl⟩ := List.exists_cons_of_ne_nil hne
    rw [hsplit] at hk ⊢
    have hstep : Steps L g operand ⟨d :: x, k⟩ rest := by
      refine steps_lexeme hL hk hplain.1 fun hx hpower => ?_
      rw [hhead, Option.or_eq_some_iff] at hpower
      rcases hpower with hpower | ⟨-, hpower⟩
      · obtain ⟨l, hl, hspelling⟩ := Option.bind_eq_some_iff.1 hpower
        exact hapart.rel_head? hl hx hspelling
      · exact head?_unread_ne_power hL _ _ hpower
    rw [Steps] at hstep
    rw [hstep, ih ⟨hplain.2, hapart.tail, hunread⟩]
    dsimp only
    split
    · next hread =>
      rw [Option.map_some, hhead, hread, List.head?_nil, Option.or_none]
      rfl
    · rfl

/-- Outside a cell, a script without calls of any number of values is only promoted. It is made up of its lexemes, its
tokens are theirs, and the tokens of the promoted script are those of the same lexemes promoted one by one. What is
malformed stays malformed. -/
theorem lex_desugar_promoted (hcalls : IsEmpty (Head s)) (h : Promotable (L.lexemes s)) :
    (L.lexemes s).read.flatMap Lexeme.spelling ++ (L.lexemes s).unread = s ∧
      (L.lex s = if (L.lexemes s).unread = [] then some ((L.lexemes s).read.flatMap (·.token.toList)) else none) ∧
      L.lex (desugar none s) =
        if (L.lexemes s).unread = [] then some (promotedTokens false (L.lexemes s).read) else none := by
  refine ⟨Lexer.flatten_lexemesFrom true s, Lexer.lexFrom_eq_lexemesFrom true s, ?_⟩
  have hdesugar : desugar none s = promoteRest false s := by
    rw [← mapCode_promote, desugar, pack_of_isEmpty hcalls]
  rw [hdesugar]
  exact lexFrom_promoteRest hL true s h false

end Run

theorem lex_desugar_promoted_power :
    IsEmpty (Head "2^3+1.5e3".toList) ∧ lexer.Rules ∧ Promotable (lexer.lexemes "2^3+1.5e3".toList) ∧
      lex "2^3+1.5e3".toList = some [.int 2, .symbol (.operator .differ), .int 3, .symbol (.operator .add),
        .decimal false ⟨15, 2⟩] ∧
      lex (desugar none "2^3+1.5e3".toList) = some [.decimal false ⟨20, -1⟩, .symbol (.operator .power),
        .decimal false ⟨30, -1⟩, .symbol (.operator .add), .decimal false ⟨15, 2⟩] := by
  have hround : '(' ∉ "2^3+1.5e3".toList := by decide
  have hcalls : IsEmpty (Head "2^3+1.5e3".toList) := ⟨fun k => hround (List.mem_of_getElem? k.getElem?_opening)⟩
  have hpromotable : Promotable (lexer.lexemes "2^3+1.5e3".toList) :=
    ⟨by decide +kernel, by decide +kernel, by decide +kernel⟩
  obtain ⟨-, hlex, hdesugar⟩ := lex_desugar_promoted lexer_rules hcalls hpromotable
  exact ⟨hcalls, lexer_rules, hpromotable, hlex.trans (by decide +kernel), hdesugar.trans (by decide +kernel)⟩

/-- The digits behind the sign of an exponent are promoted too, and then the number is read without the fraction. -/
example : lex (desugar none "1e-5".toList) = some [.decimal false ⟨1, -5⟩, .symbol .dot, .int 0] := by decide +kernel

end Formula

end Spreadsheet
