import Spreadsheet.Proofs.Formula.Notation
import Spreadsheet.Proofs.Script.Lexemes

/-!
# The tokens of literals

By the rules of lexers the literal of a value has the tokens of its form (`Rules.lexFrom_written`), in front of any text
that does not go on with its last token. Behind a literal no operand begins.
-/

namespace Spreadsheet.Script

open Text (isDigit isLetter)
open Spreadsheet.Script.Token (isNameChar isDigitRun BeginsComment)

/-! ### Digits -/

namespace Token

/-- A point at the start of the text makes a number with whole digits in front of it. -/
def pointJoins : Text → Bool
  | '.' :: c :: _ => !(isLetter c || c == '_' || c == '.')
  | _ => false

theorem pointJoins_of_head? {z : Text} (h : z.head? ≠ some '.') : pointJoins z = false := by
  unfold pointJoins
  split
  · exact absurd rfl h
  · rfl

theorem fraction_of_not_pointJoins {z : Text} (h : pointJoins z = false) : fraction z = (none, z) := by
  match z with
  | [] => rfl
  | [c] => exact fraction.eq_2 _ fun _ _ ht => by cases ht
  | c :: d :: t =>
    by_cases hc : c = '.'
    · subst hc
      have hd : (isLetter d || d == '_' || d == '.') = true := by
        rwa [pointJoins, Bool.not_eq_false'] at h
      have hdigit : isDigit d = false := by
        simp only [Bool.or_eq_true, beq_iff_eq] at hd
        rcases hd with (hd | rfl) | rfl
        · exact isDigit_of_isLetter hd
        · decide
        · decide
      rw [fraction, hdigit, if_neg Bool.false_ne_true, if_pos hd]
    · exact fraction_of_ne hc _

theorem exponent_of_not_isNameChar {z : Text} (h : ∀ c ∈ z.head?, isNameChar c = false) : exponent z = (none, z) := by
  match z with
  | [] => rfl
  | [c] => rfl
  | c :: d :: t =>
    refine exponent_of_not (fun hc => ?_) t
    have hname := h c rfl
    rcases hc.1 with rfl | rfl <;> exact absurd hname (by decide)

theorem isDigitRun_of_isDigit {c : Char} (h : isDigit c = true) : isDigitRun c = true := by simp [isDigitRun, h]

theorem plain_of_digits {t : Text} (h : ∀ c ∈ t, isDigit c = true) : plain t = t := by
  refine List.filter_eq_self.2 fun c hc => ?_
  have hne : c ≠ '_' := Text.ne_of_kind (h _ hc) rfl
  simpa using hne

theorem takeWhile_digits {t z : Text} (h : ∀ c ∈ t, isDigit c = true) (hz : ∀ c ∈ z.head?, isDigitRun c = false) :
    (t ++ z).takeWhile isDigitRun = t ∧ (t ++ z).dropWhile isDigitRun = z :=
  Text.takeWhile_append_of_head? (fun c hc => isDigitRun_of_isDigit (h c hc)) hz

end Token

end Script

namespace Digits

open Script Script.Token
open Text (isDigit)

def token (negative : Bool) (d : Digits) : Token :=
  match d.fraction with
  | none => .whole negative d.whole
  | some t => .decimal negative (Decimal.ofParts d.whole t 0)

theorem head_isDigit (d : Digits) : ∃ c t, d.text = c :: t ∧ isDigit c = true := by
  obtain ⟨c, t, hwhole⟩ := List.exists_cons_of_ne_nil d.whole_ne
  exact ⟨c, t ++ d.fraction.elim [] ('.' :: ·), by rw [text, hwhole]; rfl, d.whole_digit c (by rw [hwhole]; simp)⟩

theorem mem_text (d : Digits) : ∀ c ∈ d.text, isDigit c = true ∨ c = '.' := by
  intro c hc
  rcases List.mem_append.1 hc with hc | hc
  · exact .inl (d.whole_digit c hc)
  · cases hfraction : d.fraction with
    | none => simp [hfraction] at hc
    | some t =>
      simp only [hfraction, Option.elim_some, List.mem_cons] at hc
      exact hc.symm.imp_left (d.fraction_digit t hfraction c)

theorem base?_of_isDigit {c : Char} (h : isDigit c = true) : base? c = none := by
  refine Option.eq_none_iff_forall_ne_some.2 fun base hbase => ?_
  rw [isDigit_of_isLetter (isLetter_of_base? hbase)] at h
  cases h

theorem announced?_text (d : Digits) {z : Text} (hz : ∀ c ∈ z.head?, isNameChar c = false) :
    announced? (d.text ++ z) = none := by
  obtain ⟨c, t, htext, -⟩ := d.head_isDigit
  -- what stands behind the first digit announces no base
  have hnext : ∀ e ∈ (t ++ z).head?, base? e = none ∧ (e == '_') = false := by
    intro e he
    cases t with
    | nil => exact ⟨base?_of_not_isNameChar (hz e he), not_underscore (hz e he)⟩
    | cons f t =>
      obtain rfl : f = e := Option.some.inj he
      rcases d.mem_text f (by rw [htext]; simp) with hf | rfl
      · exact ⟨base?_of_isDigit hf, beq_eq_false_iff_ne.2 fun h => by cases h ▸ hf⟩
      · exact ⟨rfl, rfl⟩
  by_cases hc : c = '0'
  · subst hc
    rw [htext, List.cons_append, announced?]
    cases hrest : t ++ z with
    | nil => rfl
    | cons e u =>
      obtain ⟨hbase, hunderscore⟩ := hnext e (by rw [hrest]; rfl)
      simp [hunderscore, hbase]
  · rw [htext]
    exact announced?_of_ne hc _

/-- A number is spelled with the digits that it has. -/
theorem spelled_text (d : Digits) {z : Text} (hz : ∀ c ∈ z.head?, isNameChar c = false)
    (hpoint : d.fraction = none → pointJoins z = false) :
    spelled (d.text ++ z) = (.decimal d.whole d.fraction none, z) := by
  have hrun : ∀ c ∈ z.head?, isDigitRun c = false := fun c hc => isDigitRun_of_not_isNameChar (hz c hc)
  rw [spelled, d.announced?_text hz]
  dsimp only
  cases hfraction : d.fraction with
  | none =>
    have htext : d.text = d.whole := by rw [text, hfraction]; simp
    obtain ⟨htake, hdrop⟩ := takeWhile_digits d.whole_digit hrun
    rw [htext, htake, hdrop, fraction_of_not_pointJoins (hpoint hfraction), exponent_of_not_isNameChar hz,
      plain_of_digits d.whole_digit]
  | some t =>
    have htext : d.text = d.whole ++ '.' :: t := by rw [text, hfraction]; rfl
    obtain ⟨c, u, rfl⟩ := List.exists_cons_of_ne_nil fun h : t = [] => d.fraction_ne (by rw [hfraction, h])
    have hdigits := d.fraction_digit _ hfraction
    obtain ⟨hc, hu⟩ := List.forall_mem_cons.1 hdigits
    obtain ⟨htake, hdrop⟩ := takeWhile_digits (z := '.' :: (c :: u ++ z)) d.whole_digit fun _ h =>
      Option.some.inj h ▸ (by decide)
    obtain ⟨htake', hdrop'⟩ := takeWhile_digits hu hrun
    rw [htext, List.append_assoc, List.cons_append, htake, hdrop, List.cons_append, Token.fraction, if_pos hc,
      htake', hdrop', exponent_of_not_isNameChar hz, plain_of_digits d.whole_digit, plain_of_digits hdigits]

end Digits

namespace Script

open Text (isDigit isLetter)

/-! ### Single tokens -/

namespace Lexer.Rules

open Spreadsheet.Script.Token

variable {L : Lexer} (hL : L.Rules) {operand : Bool} {c : Char} {z : Text}
include hL

section Digits

variable (d : Digits) (hz : ∀ c ∈ z.head?, isNameChar c = false) (hpoint : d.fraction = none → pointJoins z = false)

theorem number?_digits (negative : Bool) :
    L.number? negative (.decimal d.whole d.fraction none) = some (d.token negative) := by
  cases hfraction : d.fraction with
  | none =>
    rw [hL.whole negative d.whole d.whole_ne d.whole_digit, Digits.token, hfraction]
  | some t =>
    rw [hL.point negative d.whole t d.whole_ne d.whole_digit (fun h => d.fraction_ne (by rw [hfraction, h]))
      (d.fraction_digit t hfraction), Digits.token, hfraction]

theorem digits_end (negative : Bool) : L.opensOperand (d.token negative) = false :=
  hL.number_ends _ _ _ (hL.number?_digits d negative)

include hz hpoint

theorem readNumber_digits (negative : Bool) : L.readNumber negative (d.text ++ z) = some (some (d.token negative), z) := by
  rw [readNumber, d.spelled_text hz hpoint, hL.number?_digits]
  rfl

theorem lexeme?_digits : L.lexeme? operand (d.text ++ z) = some (some (d.token false), z) := by
  have hread := hL.readNumber_digits d hz hpoint false
  obtain ⟨c, t, htext, hc⟩ := d.head_isDigit
  rw [htext, List.cons_append] at hread ⊢
  rw [hL.number operand c _ hc, hread]

theorem lexeme?_minus : L.lexeme? true ('-' :: (d.text ++ z)) = some (some (d.token true), z) := by
  have hread := hL.readNumber_digits d hz hpoint true
  obtain ⟨c, t, htext, hc⟩ := d.head_isDigit
  rw [htext, List.cons_append] at hread ⊢
  rw [hL.negative c _ hc, hread]

end Digits

/-- What an escaped text stands for. -/
theorem text?_escape (t : Text) : L.text? (t.flatMap Text.escape) = some (.text t) := by
  induction t with
  | nil => exact hL.text_nil
  | cons c t ih =>
    have hescape {e d : Char} (h : (e, d) ∈ escapes) :
        L.text? (['\\', e] ++ t.flatMap Text.escape) = some (.text (d :: t)) :=
      hL.text_escape (e, d) h _ t ih
    rw [List.flatMap_cons, Text.escape.eq_def c]
    split
    · exact hescape (by decide)
    · exact hescape (by decide)
    · exact hescape (by decide)
    · exact hescape (by decide)
    · exact hescape (by decide)
    · next hquote hslash hline hreturn _ =>
      have hends : endsLine c = false :=
        Bool.or_eq_false_iff.2 ⟨beq_eq_false_iff_ne.2 hline, beq_eq_false_iff_ne.2 hreturn⟩
      exact hL.text_cons c _ t hquote hslash hends ih

omit hL in
theorem closing_escape_append (t : Text) (hz : z.head? ≠ some '"') :
    closing '"' (t.flatMap Text.escape ++ '"' :: z) = some (t.flatMap Text.escape, z) := by
  induction t with
  | nil => exact closing_close (by decide) hz
  | cons c t ih =>
    have hescape (e : Char) : closing '"' (['\\', e] ++ t.flatMap Text.escape ++ '"' :: z) =
        some (['\\', e] ++ t.flatMap Text.escape, z) := by
      rw [List.append_assoc, List.cons_append, List.singleton_append, closing_escape, ih]
      rfl
    rw [List.flatMap_cons, Text.escape.eq_def c]
    split
    · exact hescape _
    · exact hescape _
    · exact hescape _
    · exact hescape _
    · exact hescape _
    · next hquote hslash _ _ _ =>
      rw [List.append_assoc, List.singleton_append, closing_cons hslash hquote, ih]
      rfl

/-- A text is read back from its literal, unless a quotation mark right behind it goes on with it. -/
theorem lexeme?_quote (t : Text) (hz : z.head? ≠ some '"') :
    L.lexeme? operand (Text.quote t ++ z) = some (some (.text t), z) := by
  rw [Text.quote_append, hL.text, readText, closing_escape_append t hz, Option.bind_some, hL.text?_escape]
  rfl

theorem lexeme?_word {w : Text} {k : Token} (hletter : isLetter c = true) (hw : ∀ d ∈ w, isNameChar d = true)
    (h : L.word? (c :: w) = some k) (hz : ∀ d ∈ z.head?, isNameChar d = false) :
    L.lexeme? operand (c :: w ++ z) = some (some k, z) := by
  have hname : isNameChar c = true := by simp [isNameChar, hletter]
  obtain ⟨htake, hdrop⟩ := Text.takeWhile_append_of_head? (List.forall_mem_cons.2 ⟨hname, hw⟩) hz
  rw [List.cons_append] at htake hdrop ⊢
  rw [hL.word operand c _ (by simp [hletter]), readWord, htake, hdrop, h]
  rfl

theorem lexeme?_bool (b : Bool) (hz : ∀ c ∈ z.head?, isNameChar c = false) :
    L.lexeme? operand ((if b then "true".toList else "false".toList) ++ z) =
      some (some (.keyword (if b then .yes else .no)), z) := by
  cases b
  · exact hL.lexeme?_word (c := 'f') (w := "alse".toList) rfl (by decide) hL.no hz
  · exact hL.lexeme?_word (c := 't') (w := "rue".toList) rfl (by decide) hL.yes hz

end Lexer.Rules

/-! ### Literals -/

open Spreadsheet.Script.Token

def Numeral.tokens : Numeral → List Token
  | plain d => [d.token false]
  | negative d => [.symbol .openRound, d.token true, .symbol .closeRound]
  | quotient neg d =>
    [.symbol .openRound, d.token neg, .symbol (.operator .divide), Digits.zeroPoint.token false, .symbol .closeRound]

namespace Written

mutual

def tokens : Written → List Token
  | number n => n.tokens
  | bool b => [.keyword (if b then .yes else .no)]
  | quoted t => [.text t]
  | list items => .symbol .openSquare :: itemTokens items ++ [.symbol .closeSquare]

/-- The tokens of the items of a list, with commas between them. -/
def itemTokens : List Written → List Token
  | [] => []
  | [w] => w.tokens
  | w :: rest => w.tokens ++ .symbol .comma :: itemTokens rest

end

theorem itemTokens_cons_cons (w v : Written) (rest : List Written) :
    itemTokens (w :: v :: rest) = w.tokens ++ .symbol .comma :: itemTokens (v :: rest) := by
  rw [itemTokens]
  intro h
  cases h

/-- What stands behind the literal does not go on with its last token. -/
structure Ends (w : Written) (z : Text) : Prop where
  name : ∀ c ∈ z.head?, isNameChar c = false
  quote : ∀ t, w = quoted t → z.head? ≠ some '"'
  point : ∀ d, w = number (.plain d) → d.fraction = none → pointJoins z = false

theorem ends_cons {c : Char} (hname : isNameChar c = false) (hquote : c ≠ '"') (hpoint : c ≠ '.') (w : Written)
    (z : Text) : w.Ends (c :: z) where
  name _ hd := Option.some.inj hd ▸ hname
  quote _ _ h := hquote (Option.some.inj h)
  point _ _ _ := pointJoins_of_head? fun h => hpoint (Option.some.inj h)

theorem ends_nil (w : Written) : w.Ends [] where
  name _ h := by cases h
  quote _ _ h := by cases h
  point _ _ _ := rfl

end Written

/-! ### Reading literals -/

namespace Lexer.Rules

variable {L : Lexer} (hL : L.Rules) {operand : Bool} {z : Text}
include hL

theorem lexFrom_gap {c : Char} (h : Text.isGap c = true) : L.lexFrom operand (c :: z) = L.lexFrom operand z :=
  lexFrom_skip (hL.gap operand c z h)

/-- A symbol that does not go on, and behind which an operand begins or not. -/
theorem lexFrom_joint {c : Char} {m : Symbol} {opens : Bool} (h : ([c], m) ∈ joints) (hslash : c ≠ '/')
    (hz : ∀ d ∈ z.head?, L.isSymbol [c, d] = false) (hopens : L.opensOperand (.symbol m) = opens) :
    L.lexFrom operand (c :: z) = (L.lexFrom opens z).map (.symbol m :: ·) := by
  have hlexeme : L.lexeme? operand ([c] ++ z) = some (some (.symbol m), z) :=
    hL.lexeme?_joint h hz (not_beginsComment_of_ne hslash)
  rw [← hopens]
  exact lexFrom_token hlexeme

theorem lexFrom_openRound (hz : ∀ d ∈ z.head?, d ≠ ')' ∧ d ≠ '*') :
    L.lexFrom operand ('(' :: z) = (L.lexFrom true z).map (.symbol .openRound :: ·) := by
  refine hL.lexFrom_joint (by decide) (by decide) (fun d hd => ?_) (hL.opens _ (by decide))
  exact Bool.eq_false_iff.2 fun hgoes => (hL.openRound d hgoes).elim (hz d hd).1 (hz d hd).2

theorem lexFrom_closeRound : L.lexFrom operand (')' :: z) = (L.lexFrom false z).map (.symbol .closeRound :: ·) :=
  hL.lexFrom_joint (by decide) (by decide) (fun d _ => hL.closes [')'] (by decide) d) (hL.ends _ (by decide))

theorem lexFrom_openSquare : L.lexFrom operand ('[' :: z) = (L.lexFrom true z).map (.symbol .openSquare :: ·) :=
  hL.lexFrom_joint (by decide) (by decide) (fun d _ => hL.closes ['['] (by decide) d) (hL.opens _ (by decide))

theorem lexFrom_closeSquare : L.lexFrom operand (']' :: z) = (L.lexFrom false z).map (.symbol .closeSquare :: ·) :=
  hL.lexFrom_joint (by decide) (by decide) (fun d _ => hL.closes [']'] (by decide) d) (hL.ends _ (by decide))

theorem lexFrom_comma : L.lexFrom operand (',' :: z) = (L.lexFrom true z).map (.symbol .comma :: ·) :=
  hL.lexFrom_joint (by decide) (by decide) (fun d _ => hL.closes [','] (by decide) d) (hL.opens _ (by decide))

/-- No symbol of those that formulas are put together with goes on with a name. -/
theorem isSymbol_isNameChar {p : Text × Symbol} {d : Char} (h : p ∈ joints) (hd : isNameChar d = true) :
    L.isSymbol (p.1 ++ [d]) = false := by
  have hne : ∀ p ∈ joints, p.1 ≠ [] := by decide
  refine Bool.eq_false_iff.2 fun hgoes => ?_
  obtain ⟨hname, -⟩ := hL.goesOn p.1 d (hne p h) (hL.isSymbol_of_mem h) hgoes
  rw [hd] at hname
  cases hname

theorem lexFrom_divide (hz : ∃ c ∈ z.head?, isNameChar c = true) :
    L.lexFrom operand ('/' :: z) = (L.lexFrom true z).map (.symbol (.operator .divide) :: ·) := by
  obtain ⟨c, hc, hname⟩ := hz
  obtain ⟨z, rfl⟩ := List.head?_eq_some_iff.1 hc
  have hcomment : ¬ BeginsComment (['/'] ++ c :: z) := by
    rintro ⟨u, hu | hu⟩
    all_goals
      obtain ⟨rfl, -⟩ := List.cons.inj (List.cons.inj hu).2
      cases hname
  have hlexeme : L.lexeme? operand (['/'] ++ c :: z) = some (some (.symbol (.operator .divide)), c :: z) :=
    hL.lexeme?_joint (by decide) (fun d hd => ?_) hcomment
  · rw [← hL.opens (.operator .divide) (by decide)]
    exact lexFrom_token hlexeme
  · obtain rfl := Option.some.inj hd
    exact hL.isSymbol_isNameChar (p := (['/'], .operator .divide)) (by decide) hname

theorem lexFrom_digits (d : Digits) (hz : ∀ c ∈ z.head?, isNameChar c = false)
    (hpoint : d.fraction = none → pointJoins z = false) :
    L.lexFrom operand (d.text ++ z) = (L.lexFrom false z).map (d.token false :: ·) := by
  rw [lexFrom_token (hL.lexeme?_digits d hz hpoint), hL.digits_end]

theorem lexFrom_minus (d : Digits) (hz : ∀ c ∈ z.head?, isNameChar c = false)
    (hpoint : d.fraction = none → pointJoins z = false) :
    L.lexFrom true ('-' :: (d.text ++ z)) = (L.lexFrom false z).map (d.token true :: ·) := by
  rw [lexFrom_token (hL.lexeme?_minus d hz hpoint), hL.digits_end]

theorem lexFrom_signed (neg : Bool) (d : Digits) (hz : ∀ c ∈ z.head?, isNameChar c = false)
    (hpoint : d.fraction = none → pointJoins z = false) :
    L.lexFrom true ((if neg then '-' :: d.text else d.text) ++ z) = (L.lexFrom false z).map (d.token neg :: ·) := by
  cases neg
  · exact hL.lexFrom_digits d hz hpoint
  · exact hL.lexFrom_minus d hz hpoint

omit hL in
theorem head?_signed (neg : Bool) (d : Digits) (z : Text) :
    ∀ c ∈ ((if neg then '-' :: d.text else d.text) ++ z).head?, c ≠ ')' ∧ c ≠ '*' := by
  obtain ⟨e, t, hd, he⟩ := d.head_isDigit
  intro c hc
  cases neg
  · rw [if_neg Bool.false_ne_true, hd] at hc
    obtain rfl := Option.some.inj hc
    exact ⟨Text.ne_of_kind he rfl, Text.ne_of_kind he rfl⟩
  · obtain rfl := Option.some.inj hc
    decide

theorem lexFrom_numeral (n : Numeral) (h : (Written.number n).Ends z) :
    L.lexFrom operand (n.text ++ z) = (L.lexFrom false z).map (n.tokens ++ ·) := by
  have hclose (c : Char) (hc : isNameChar c = false) (t : Text) : ∀ d ∈ (c :: t).head?, isNameChar d = false :=
    fun d hd => Option.some.inj hd ▸ hc
  have hpoint (c : Char) (hc : c ≠ '.') (t : Text) (d : Digits) : d.fraction = none → pointJoins (c :: t) = false :=
    fun _ => pointJoins_of_head? fun h => hc (Option.some.inj h)
  cases n with
  | plain d => exact hL.lexFrom_digits d h.name (h.point d rfl)
  | negative d =>
    have htext : (Numeral.negative d).text ++ z = '(' :: ('-' :: (d.text ++ ')' :: z)) := by simp [Numeral.text]
    rw [htext, hL.lexFrom_openRound (by simp), hL.lexFrom_minus d (hclose _ rfl z) (hpoint _ (by decide) z d),
      hL.lexFrom_closeRound, Option.map_map, Option.map_map]
    rfl
  | quotient neg d =>
    have htext : (Numeral.quotient neg d).text ++ z =
        '(' :: ((if neg then '-' :: d.text else d.text) ++ '/' :: (Digits.zeroPoint.text ++ ')' :: z)) := by
      simp [Numeral.text]
    have hbehind : L.lexFrom false ('/' :: (Digits.zeroPoint.text ++ ')' :: z)) =
        (L.lexFrom false z).map (fun ks => .symbol (.operator .divide) :: Digits.zeroPoint.token false ::
          .symbol .closeRound :: ks) := by
      rw [hL.lexFrom_divide (z := Digits.zeroPoint.text ++ ')' :: z) ⟨'0', rfl, rfl⟩,
        hL.lexFrom_digits _ (hclose _ rfl z) (hpoint _ (by decide) z _),
        hL.lexFrom_closeRound, Option.map_map, Option.map_map]
      rfl
    rw [htext, hL.lexFrom_openRound (head?_signed neg d _),
      hL.lexFrom_signed neg d (hclose _ rfl _) (hpoint _ (by decide) _ d), hbehind, Option.map_map, Option.map_map]
    rfl

theorem lexFrom_items {items : List Written} (h : ∀ w ∈ items, ∀ {operand z}, w.Ends z →
    L.lexFrom operand (w.text ++ z) = (L.lexFrom false z).map (w.tokens ++ ·)) :
    L.lexFrom operand (Text.join [',', ' '] (Written.texts items) ++ ']' :: z) =
      (L.lexFrom false z).map (Written.itemTokens items ++ [.symbol .closeSquare] ++ ·) := by
  induction items generalizing operand with
  | nil => exact hL.lexFrom_closeSquare
  | cons w rest ih =>
    rw [List.forall_mem_cons] at h
    cases rest with
    | nil =>
      rw [Written.texts, Written.texts, Text.join, h.1 (Written.ends_cons rfl (by decide) (by decide) w z),
        hL.lexFrom_closeSquare, Option.map_map, Written.itemTokens]
      simp [Function.comp_def]
    | cons v rest =>
      have htext : Text.join [',', ' '] (Written.texts (w :: v :: rest)) ++ ']' :: z =
          w.text ++ ',' :: ' ' :: (Text.join [',', ' '] (Written.texts (v :: rest)) ++ ']' :: z) := by
        simp [Written.texts, Text.join]
      rw [htext, h.1 (Written.ends_cons rfl (by decide) (by decide) w _), hL.lexFrom_comma, hL.lexFrom_gap rfl, ih h.2,
        Option.map_map, Option.map_map, Written.itemTokens_cons_cons]
      simp only [Function.comp_def, List.append_assoc, List.cons_append]

/-- A literal is read into its tokens, and no operand begins behind it. -/
theorem lexFrom_written (w : Written) (h : w.Ends z) :
    L.lexFrom operand (w.text ++ z) = (L.lexFrom false z).map (w.tokens ++ ·) := by
  induction w generalizing operand z with
  | number n => exact hL.lexFrom_numeral n h
  | bool b =>
    have hbool : L.lexFrom operand ((Written.bool b).text ++ z) = _ := lexFrom_token (hL.lexeme?_bool b h.name)
    have hends : L.opensOperand (.keyword (if b then .yes else .no)) = false :=
      hL.value_ends _ (.inr (by cases b <;> simp))
    rw [hbool, hends]
    rfl
  | quoted t =>
    have hquoted : L.lexFrom operand (Text.quote t ++ z) = _ := lexFrom_token (hL.lexeme?_quote t (h.quote t rfl))
    rw [hL.value_ends _ (.inl ⟨t, .inl rfl⟩)] at hquoted
    exact hquoted
  | list items ih =>
    have htext : (Written.list items).text ++ z = '[' :: (Text.join [',', ' '] (Written.texts items) ++ ']' :: z) := by
      simp [Written.text]
    rw [htext, hL.lexFrom_openSquare, hL.lexFrom_items fun w hw {_ _} h => ih w hw h, Option.map_map, Written.tokens]
    rfl

end Lexer.Rules

end Script

end Spreadsheet
