import Spreadsheet.Proofs.Formula.Kinds
import Spreadsheet.Proofs.Script.Rules
import Spreadsheet.Script.Lex

/-!
# The lexer of the scripts here

It follows the rules (`lexer_rules`). What symbols and words there are is decided over their tables; the rest is to be
seen from how a lexeme is read.
-/

namespace Spreadsheet.Script

open Spreadsheet.Script.Token
open Text (isDigit isLetter isCapital isGap isBlank)

namespace Token

variable {operand : Bool} {c : Char} {t x y z u a b : Text}

theorem lexeme?_of_not_beginsComment (h : ¬ BeginsComment (c :: t)) :
    lexeme? operand (c :: t) =
      if isGap c then some (none, t)
      else if c = '"' then (closing '"' t).bind fun r => before r.2 (text? r.1)
      else if c = '\x60' then (verbatim? (dropLineBreak t)).bind fun r => before r.2 (some (.text r.1))
      else if c = '\x27' then (closing '\x27' t).bind fun r => before r.2 (character? r.1)
      else if isDigit c then before (spelled (c :: t)).2 (number? false (spelled (c :: t)).1)
      else if c = '-' ∧ operand ∧ (t.head?.any isDigit) then before (spelled t).2 (number? true (spelled t).1)
      else if isLetter c || c == '_' then
        before ((c :: t).dropWhile isNameChar) (word? ((c :: t).takeWhile isNameChar))
      else before (symbolSpan isSymbol (c :: t)).2 (symbol? (symbolSpan isSymbol (c :: t)).1) :=
  lexeme?.eq_4 operand c t (fun u hc ht => h ⟨u, .inl (by rw [hc, ht])⟩) fun u hc ht => h ⟨u, .inr (by rw [hc, ht])⟩

/-- A character that begins no lexeme of another kind begins a symbol. -/
theorem lexeme?_of_symbol (hcomment : ¬ BeginsComment (c :: t)) (hgap : isGap c = false) (hname : isNameChar c = false)
    (hquote : c ≠ '"' ∧ c ≠ '\x60' ∧ c ≠ '\x27') (hminus : ¬ (c = '-' ∧ operand = true ∧ (t.head?.any isDigit) = true)) :
    lexeme? operand (c :: t) = before (symbolSpan isSymbol (c :: t)).2 (symbol? (symbolSpan isSymbol (c :: t)).1) := by
  simp only [isNameChar, Bool.or_eq_false_iff, beq_eq_false_iff_ne] at hname
  rw [lexeme?_of_not_beginsComment hcomment, hgap, if_neg Bool.false_ne_true, if_neg hquote.1, if_neg hquote.2.1,
    if_neg hquote.2.2, hname.1.2, if_neg Bool.false_ne_true, if_neg hminus, hname.1.1, if_neg (by simpa using hname.2)]

/-! ### Symbols -/

/-- How symbols are spelled. -/
def spellings : List Text := symbols.map Prod.fst ++ reservedSymbols

theorem isSymbol_iff : isSymbol x = true ↔ x ∈ spellings := by
  unfold isSymbol symbol? spellings
  rw [List.mem_append]
  split
  · next m hm =>
    obtain ⟨p, hp, hx⟩ := List.lookup_isSome_iff.1 (Option.isSome_of_eq_some hm)
    exact iff_of_true rfl (.inl (List.mem_map.2 ⟨p, hp, (eq_of_beq hx).symm⟩))
  · next hnone =>
    have hnot : x ∉ symbols.map Prod.fst := by
      intro hx
      obtain ⟨p, hp, rfl⟩ := List.mem_map.1 hx
      have hne := List.lookup_eq_none_iff.1 hnone p hp
      simp at hne
    rw [or_iff_right hnot, ← List.contains_iff_mem]
    cases reservedSymbols.contains x <;> simp

theorem mem_spellings_of_append (h : isSymbol (x ++ [c]) = true) :
    ∃ y ∈ spellings, y.dropLast = x ∧ y.getLast? = some c :=
  ⟨_, isSymbol_iff.1 h, List.dropLast_concat, List.getLast?_concat⟩

theorem not_goesOn (h : ∀ y ∈ spellings, y.dropLast ≠ x) (c : Char) : isSymbol (x ++ [c]) = false := by
  rw [Bool.eq_false_iff]
  intro hc
  obtain ⟨y, hy, hx, -⟩ := mem_spellings_of_append hc
  exact h y hy hx

theorem symbolSpan_blank (h : isBlank c = true) (t : Text) : symbolSpan isSymbol (c :: t) = ([], c :: t) := by
  have hfirst : ∀ y ∈ spellings, (y.head?.any fun e => !isBlank e) = true := by decide +kernel
  have hne : ∀ u, c :: t ≠ '!' :: 'i' :: 'n' :: u := fun u hu =>
    absurd ((List.cons.inj hu).1 ▸ h : isBlank '!' = true) (by decide)
  have hnot : isSymbol [c] = false := by
    rw [Bool.eq_false_iff]
    intro hc
    have hblank := hfirst _ (isSymbol_iff.1 hc)
    simp [h] at hblank
  rw [symbolSpan_of_ne hne, munch, List.nil_append, hnot, if_neg Bool.false_ne_true]

theorem symbolSpan_hash (h : symbolSpan isSymbol ('#' :: x ++ y) = (a, u ++ y))
    (hz : u = [] → ∀ c ∈ z.head?, begins c = true) : symbolSpan isSymbol ('#' :: x ++ z) = (a, u ++ z) := by
  have hne : ∀ v w, '#' :: x ++ v ≠ '!' :: 'i' :: 'n' :: w := fun v w hw =>
    absurd (List.cons.inj hw).1 (by decide)
  rw [symbolSpan_of_ne (hne y)] at h
  rw [symbolSpan_of_ne (hne z)]
  have hsplit : '#' :: x = a ++ u := by
    have happend := munch_append isSymbol [] ('#' :: x ++ y)
    rw [h, List.nil_append, ← List.append_assoc] at happend
    exact List.append_cancel_right happend.symm
  rw [hsplit, List.append_assoc] at h ⊢
  have hstops := munch_stops h
  refine munch_append_of_stops (x := []) h fun c hc => ?_
  cases u with
  | cons d u => exact hstops c hc
  | nil =>
    have htable : ∀ w ∈ spellings, w.head? = some '#' → (w.tail.all fun e => !begins e) = true := by decide +kernel
    rw [List.append_nil] at hsplit
    rw [List.nil_append, ← hsplit, Bool.eq_false_iff]
    intro hsymbol
    have hall := htable _ (isSymbol_iff.1 hsymbol) rfl
    have hbegins := List.all_eq_true.1 hall c (by simp)
    rw [hz rfl c hc] at hbegins
    cases hbegins

/-! ### Quotations -/

/-- A text between back quotes ends at the same one whatever stands behind it, unless that is another one. -/
theorem exists_of_verbatim? (h : verbatim? t = some (a, b)) :
    b.head? ≠ some '\x60' ∧ ∃ w, t = w ++ b ∧ ∀ z, z.head? ≠ some '\x60' → verbatim? (w ++ z) = some (a, z) := by
  fun_induction verbatim? t generalizing a with
  | case1 => cases h
  | case2 t ih =>
    obtain ⟨a', ha', rfl⟩ := Text.of_map_cons h
    obtain ⟨hb, w, rfl, hw⟩ := ih ha'
    refine ⟨hb, '\x60' :: '\x60' :: w, rfl, fun z hz => ?_⟩
    rw [List.cons_append, List.cons_append, verbatim?, hw z hz]
    rfl
  | case3 t hd =>
    obtain ⟨rfl, rfl⟩ := Prod.mk.inj (Option.some.inj h)
    have hclose : ∀ z : Text, z.head? ≠ some '\x60' → verbatim? ('\x60' :: z) = some ([], z) := fun z hz =>
      verbatim?.eq_3 z fun w hw => hz (by rw [hw]; rfl)
    refine ⟨fun hhead => ?_, ['\x60'], rfl, hclose⟩
    obtain ⟨w, hw⟩ := List.head?_eq_some_iff.1 hhead
    exact hd w hw
  | case4 t ih =>
    obtain ⟨a', ha', rfl⟩ := Text.of_map_cons h
    obtain ⟨hb, w, rfl, hw⟩ := ih ha'
    refine ⟨hb, '\r' :: '\n' :: w, rfl, fun z hz => ?_⟩
    rw [List.cons_append, List.cons_append, verbatim?, hw z hz]
    rfl
  | case5 c t _ hc hbreak ih =>
    obtain ⟨a', ha', rfl⟩ := Text.of_map_cons h
    obtain ⟨hb, w, rfl, hw⟩ := ih ha'
    -- the text goes on at least to its closing mark
    obtain ⟨d, w, rfl⟩ : ∃ d w', w = d :: w' := by
      refine List.exists_cons_of_ne_nil ?_
      rintro rfl
      exact absurd (hw [] nofun) nofun
    refine ⟨hb, c :: d :: w, rfl, fun z hz => ?_⟩
    have hline : ∀ v, c = '\r' → d :: (w ++ z) ≠ '\n' :: v := fun v hr hv =>
      hbreak (w ++ b) hr (congrArg (· :: (w ++ b)) (List.cons.inj hv).1)
    have hstep := verbatim?.eq_5 c (d :: (w ++ z)) (fun v hv _ => hc hv) hc hline
    have hrest : verbatim? (d :: (w ++ z)) = some (a', z) := hw z hz
    rw [List.cons_append, List.cons_append, hstep, hrest]
    rfl

theorem exists_of_dropLineBreak (t : Text) :
    ∃ w, t = w ++ dropLineBreak t ∧ ∀ v d, dropLineBreak t = d :: v → ∀ v', dropLineBreak (w ++ d :: v') = d :: v' := by
  fun_cases dropLineBreak t with
  | case1 t => exact ⟨['\r', '\n'], rfl, fun _ _ _ _ => rfl⟩
  | case2 t hline =>
    refine ⟨['\r'], rfl, fun v d ht v' => dropLineBreak.eq_2 _ fun w hw => hline v ?_⟩
    rw [ht, (List.cons.inj hw).1]
  | case3 t => exact ⟨['\n'], rfl, fun _ _ _ _ => rfl⟩
  | case4 _ hreturnLine hreturn hline =>
    refine ⟨[], rfl, fun v d ht v' => ?_⟩
    have hr : d ≠ '\r' := by
      rintro rfl
      exact hreturn v ht
    have hn : d ≠ '\n' := by
      rintro rfl
      exact hline v ht
    exact dropLineBreak.eq_4 _ (fun _ hw => hr (List.cons.inj hw).1) (fun _ hw => hr (List.cons.inj hw).1)
      fun _ hw => hn (List.cons.inj hw).1

theorem head?_append_ne {m : Char} (hm : begins m = false) (hu : (u ++ y).head? ≠ some m)
    (hz : u = [] → ∀ c ∈ z.head?, begins c = true) : (u ++ z).head? ≠ some m := by
  cases u with
  | cons d u => exact hu
  | nil =>
    intro hhead
    rw [hz rfl m hhead] at hm
    cases hm

theorem verbatim?_append (h : verbatim? (dropLineBreak (x ++ y)) = some (a, u ++ y))
    (hz : u = [] → ∀ c ∈ z.head?, begins c = true) : verbatim? (dropLineBreak (x ++ z)) = some (a, u ++ z) := by
  obtain ⟨w, hw, hbreak⟩ := exists_of_dropLineBreak (x ++ y)
  obtain ⟨hhead, v, hv, hread⟩ := exists_of_verbatim? h
  obtain ⟨d, v, rfl⟩ : ∃ d v', v = d :: v' := by
    refine List.exists_cons_of_ne_nil ?_
    rintro rfl
    exact absurd (hread [] nofun) nofun
  have hx : x = w ++ d :: v ++ u := by
    refine List.append_cancel_right (hw.trans ?_)
    rw [hv, List.append_assoc, List.append_assoc]
  have hdrop : dropLineBreak (x ++ z) = d :: v ++ (u ++ z) := by
    rw [hx, List.append_assoc, List.append_assoc, List.cons_append]
    exact hbreak _ d hv _
  rw [hdrop]
  exact hread _ (head?_append_ne rfl hhead hz)

theorem closing_append_of_begins {close : Char} (hslash : close ≠ '\\') (hclose : begins close = false)
    (h : closing close (x ++ y) = some (a, u ++ y)) (hz : u = [] → ∀ c ∈ z.head?, begins c = true) :
    closing close (x ++ z) = some (a, u ++ z) := by
  have hx : x = a ++ close :: u := List.append_cancel_right (by rw [closing_eq_append h]; simp)
  rw [hx, List.append_assoc, List.cons_append]
  exact closing_append hslash h (head?_append_ne hclose (head?_of_closing h) hz)

theorem lexeme?_double (t : Text) :
    lexeme? operand ('"' :: t) = (closing '"' t).bind fun r => before r.2 (text? r.1) := by
  rw [lexeme?_of_not_beginsComment (not_beginsComment_of_ne (by decide)), if_neg (by decide), if_pos rfl]

theorem lexeme?_back (t : Text) :
    lexeme? operand ('\x60' :: t) = (verbatim? (dropLineBreak t)).bind fun r => before r.2 (some (.text r.1)) := by
  rw [lexeme?_of_not_beginsComment (not_beginsComment_of_ne (by decide)), if_neg (by decide), if_neg (by decide),
    if_pos rfl]

theorem lexeme?_single (t : Text) :
    lexeme? operand ('\x27' :: t) = (closing '\x27' t).bind fun r => before r.2 (character? r.1) := by
  rw [lexeme?_of_not_beginsComment (not_beginsComment_of_ne (by decide)), if_neg (by decide), if_neg (by decide),
    if_neg (by decide), if_pos rfl]

theorem lexeme?_hash (t : Text) : lexeme? operand ('#' :: t) =
    before (symbolSpan isSymbol ('#' :: t)).2 (symbol? (symbolSpan isSymbol ('#' :: t)).1) :=
  lexeme?_of_symbol (not_beginsComment_of_ne (by decide)) rfl rfl (by decide) fun h => absurd h.1 (by decide)

/-- What is behind a marked text in front of `y` is behind it in front of `z`. -/
theorem bind_before_append (meaning : Text → Option Token) {o o' : Option (Text × Text)} {k : Option Token}
    (happend : ∀ a, o = some (a, u ++ y) → o' = some (a, u ++ z))
    (h : (o.bind fun r => before r.2 (meaning r.1)) = some (k, u ++ y)) :
    (o'.bind fun r => before r.2 (meaning r.1)) = some (k, u ++ z) := by
  obtain ⟨⟨a, b⟩, ha, h⟩ := Option.bind_eq_some_iff.1 h
  obtain ⟨k', hk, rfl, hb⟩ := before_eq_some.1 h
  dsimp only at hk hb
  subst hb
  rw [happend a ha]
  exact before_eq_some.2 ⟨k', hk, rfl, rfl⟩

theorem lexeme?_quotation {m : Char} {k : Option Token} (hm : m ∈ ['\x60', '\x27', '#'])
    (h : lexeme? operand (m :: x ++ y) = some (k, u ++ y)) (hz : u = [] → ∀ c ∈ z.head?, begins c = true) :
    lexeme? operand (m :: x ++ z) = some (k, u ++ z) := by
  simp only [List.mem_cons, List.not_mem_nil, or_false] at hm
  rcases hm with rfl | rfl | rfl
  · rw [List.cons_append, lexeme?_back] at h ⊢
    exact bind_before_append (fun a => some (.text a)) (fun a ha => verbatim?_append ha hz) h
  · rw [List.cons_append, lexeme?_single] at h ⊢
    exact bind_before_append character? (fun a ha => closing_append_of_begins (by decide) (by decide) ha hz) h
  · rw [List.cons_append, lexeme?_hash, ← List.cons_append] at h ⊢
    obtain ⟨k', hk, rfl, hb⟩ := before_eq_some.1 h
    have hspan : symbolSpan isSymbol ('#' :: x ++ y) = ((symbolSpan isSymbol ('#' :: x ++ y)).1, u ++ y) :=
      Prod.ext rfl hb.symm
    rw [symbolSpan_hash hspan hz]
    exact before_eq_some.2 ⟨k', hk, rfl, rfl⟩

theorem lexeme?_quotation_ne {m : Char} (hm : m ∈ ['\x60', '\x27', '#']) (t rest : Text) :
    lexeme? operand (m :: t) ≠ some (none, rest) := by
  have hbefore : ∀ {r : Text} {k : Option Token}, before r k ≠ some (none, rest) := by
    intro r k hk
    obtain ⟨_, -, hnone, -⟩ := before_eq_some.1 hk
    cases hnone
  intro h
  simp only [List.mem_cons, List.not_mem_nil, or_false] at hm
  rcases hm with rfl | rfl | rfl
  · rw [lexeme?_back] at h
    obtain ⟨r, -, hr⟩ := Option.bind_eq_some_iff.1 h
    exact hbefore hr
  · rw [lexeme?_single] at h
    obtain ⟨r, -, hr⟩ := Option.bind_eq_some_iff.1 h
    exact hbefore hr
  · rw [lexeme?_hash] at h
    exact hbefore h

/-! ### Numbers and words -/

theorem lexeme?_of_isNameChar (h : isNameChar c = true) : lexeme? operand (c :: t) =
    if isDigit c then before (spelled (c :: t)).2 (number? false (spelled (c :: t)).1)
    else before ((c :: t).dropWhile isNameChar) (word? ((c :: t).takeWhile isNameChar)) := by
  have hne : ∀ e, isNameChar e = false → c ≠ e := fun e => Text.ne_of_kind h
  have hgap : ¬ isGap c = true := by
    intro hgap
    simp only [isGap, Bool.or_eq_true, beq_iff_eq] at hgap
    rcases hgap with (((rfl | rfl) | rfl) | rfl) | rfl <;> exact absurd h (by decide)
  rw [lexeme?_of_not_beginsComment (not_beginsComment_of_ne (hne '/' rfl)), if_neg hgap, if_neg (hne '"' rfl),
    if_neg (hne '\x60' rfl), if_neg (hne '\x27' rfl)]
  by_cases hdigit : isDigit c = true
  · rw [if_pos hdigit, if_pos hdigit]
  · have hletter : (isLetter c || c == '_') = true := by simpa [isNameChar, hdigit] using h
    rw [if_neg hdigit, if_neg hdigit, if_neg fun h => hne '-' rfl h.1, if_pos hletter]

theorem lexeme?_negative (h : isDigit c = true) :
    lexeme? true ('-' :: c :: t) = before (spelled (c :: t)).2 (number? true (spelled (c :: t)).1) := by
  rw [lexeme?_of_not_beginsComment (not_beginsComment_of_ne (by decide)), if_neg (by decide), if_neg (by decide),
    if_neg (by decide), if_neg (by decide), if_neg (by decide), if_pos ⟨rfl, rfl, h⟩]

theorem notMem_of_capital {w : Text} {l : List Text} (hl : ∀ t ∈ l, (t.any fun d => !isCapital d && !isDigit d) = true)
    (h : ∀ d ∈ w, isCapital d = true ∨ isDigit d = true) : w ∉ l := by
  intro hw
  obtain ⟨d, hd, hcapital, hdigit⟩ : ∃ d ∈ w, isCapital d = false ∧ isDigit d = false := by simpa using hl w hw
  rcases h d hd with hd | hd
  · rw [hd] at hcapital
    cases hcapital
  · rw [hd] at hdigit
    cases hdigit

/-- No keyword, no command and no reserved word is made up of capitals and digits. -/
theorem word?_capital {w : Text} (hc : isCapital c = true) (hw : ∀ d ∈ w, isCapital d = true ∨ isDigit d = true) :
    word? (c :: w) = some (.name (c :: w)) := by
  have hall : ∀ d ∈ c :: w, isCapital d = true ∨ isDigit d = true := List.forall_mem_cons.2 ⟨.inl hc, hw⟩
  have hkeyword : keywords.lookup (c :: w) = none := by
    refine List.lookup_eq_none_iff.2 fun p hp => bne_iff_ne.2 fun heq => ?_
    exact notMem_of_capital (l := keywords.map (·.1)) (by decide) hall (List.mem_map.2 ⟨p, hp, heq.symm⟩)
  have hcommand : ¬ commands.contains (c :: w) = true := by
    rw [List.contains_iff_mem]
    exact notMem_of_capital (by decide) hall
  have hreserved : ¬ reserved.contains (c :: w) = true := by
    rw [List.contains_iff_mem]
    exact notMem_of_capital (by decide +kernel) hall
  have hfind : ((c :: w).find? (· != '_')).any isLetter = true := by
    have hunder : (c != '_') = true := bne_iff_ne.2 (Text.ne_of_kind hc rfl)
    simp [hunder, isLetter, hc]
  rw [word?, hkeyword]
  dsimp only
  rw [if_neg hcommand, if_neg hreserved, if_pos hfind]

/-! ### Texts -/

theorem text?_eq_some {v : Text} : text? t = some (.text v) ↔ unescape? '"' t = some v := by
  rw [text?, Option.map_eq_some_iff]
  constructor
  · rintro ⟨w, hw, hv⟩
    exact hw.trans (congrArg some (Token.text.inj hv))
  · exact fun h => ⟨v, h, rfl⟩

theorem unescape?_cons {v : Text} (hquote : c ≠ '"') (hslash : c ≠ '\\') (hline : c ≠ '\n')
    (h : unescape? '"' t = some v) : unescape? '"' (c :: t) = some (c :: v) := by
  rw [unescape?.eq_def]
  dsimp only
  rw [if_neg hquote, if_neg hslash, if_neg hline, h]
  rfl

theorem unescape?_escape {v : Text} {e d : Char} (he : ∀ u, escaped? '"' (e :: u) = some (d, u))
    (h : unescape? '"' t = some v) : unescape? '"' ('\\' :: e :: t) = some (d :: v) := by
  rw [unescape?.eq_def]
  dsimp only
  rw [if_neg (by decide), if_pos rfl]
  split
  · next hnone =>
    rw [he] at hnone
    cases hnone
  · next hsome =>
    rw [he] at hsome
    obtain ⟨rfl, rfl⟩ := Prod.mk.inj (Option.some.inj hsome)
    rw [h]
    rfl

theorem number?_ends {negative : Bool} {sp : Spelled} {k : Token} (h : number? negative sp = some k) :
    k.opensOperand = false := by
  match sp with
  | .based base digits =>
    obtain ⟨n, -, h⟩ := Option.bind_eq_some_iff.1 h
    obtain ⟨-, h⟩ := Option.ite_none_left_eq_some.1 h
    obtain rfl := Option.some.inj h
    rfl
  | .decimal digits none none =>
    obtain rfl := Option.some.inj h
    unfold whole
    dsimp only
    split <;> rfl
  | .decimal digits none (some e) | .decimal digits (some f) e =>
    obtain ⟨n, -, h⟩ := Option.bind_eq_some_iff.1 h
    obtain rfl := Option.some.inj h
    rfl

end Token

/-- The lexer of the scripts here follows the rules. -/
theorem lexer_rules : lexer.Rules where
  gap operand c t h := by
    have hslash : c ≠ '/' := Text.ne_of_kind h rfl
    exact (lexeme?_of_not_beginsComment (not_beginsComment_of_ne hslash)).trans (if_pos h)
  blank c h := by
    by_cases hgap : isGap c = true
    · have hslash : c ≠ '/' := Text.ne_of_kind h rfl
      exact .inl fun operand t => (lexeme?_of_not_beginsComment (not_beginsComment_of_ne hslash)).trans (if_pos hgap)
    · have hne : ∀ e, isBlank e = false → c ≠ e := fun e => Text.ne_of_kind h
      refine .inr fun operand t => ?_
      have hsymbol : lexeme? operand (c :: t) = _ := lexeme?_of_symbol (not_beginsComment_of_ne (hne '/' rfl))
        (Bool.eq_false_iff.2 hgap) (Formula.isNameChar_of_not_isWord (Formula.isWord_of_isBlank h))
        ⟨hne '"' rfl, hne '\x60' rfl, hne '\x27' rfl⟩ fun h => hne '-' rfl h.1
      rw [symbolSpan_blank h] at hsymbol
      exact hsymbol
  line _ _ := rfl
  comment _ _ := rfl
  text operand t := @lexeme?_double operand t
  quotation operand m x y z u k hm h hz _ := lexeme?_quotation hm h hz
  quotation_token operand m t rest hm := lexeme?_quotation_ne hm t rest
  map operand t := by
    have hspan : symbolSpan isSymbol ('#' :: '\x7b' :: t) = (['#', '\x7b'], t) := by
      rw [symbolSpan_of_ne fun u hu => absurd (List.cons.inj hu).1 (by decide)]
      refine munch_of_prefixes (x := []) (a := ['#', '\x7b']) ?_ fun c _ => not_goesOn (by decide +kernel) c
      intro p hp hne
      have hp' : p ∈ [[], ['#'], ['#', '\x7b']] := (List.mem_inits _ _).2 hp
      simp only [List.mem_cons, List.not_mem_nil, or_false] at hp'
      rcases hp' with rfl | rfl | rfl
      · exact absurd rfl hne
      · decide
      · decide
    have hhash : lexeme? operand ('#' :: '\x7b' :: t) = _ := lexeme?_hash _
    rw [hspan] at hhash
    exact hhash
  number operand c t h := (lexeme?_of_isNameChar (by simp [isNameChar, h])).trans (if_pos h)
  negative c t h := lexeme?_negative h
  word operand c t h := by
    refine (lexeme?_of_isNameChar (isNameChar_of_startsWord h)).trans (if_neg ?_)
    rw [isDigit_of_startsWord h]
    exact Bool.false_ne_true
  symbol operand c t hblank hname hquote hcomment hminus := by
    have hgap : isGap c = false := Bool.eq_false_iff.2 fun hgap => by
      rw [Text.isBlank_of_isGap hgap] at hblank
      cases hblank
    simp only [quotes, Bool.or_eq_false_iff, beq_eq_false_iff_ne] at hquote
    exact lexeme?_of_symbol hcomment hgap hname ⟨hquote.1.1.1, hquote.1.1.2, hquote.1.2⟩ hminus
  whole _ _ _ _ := rfl
  point _ _ _ _ _ _ _ := rfl
  text_nil := by rw [show lexer.text? = text? from rfl, text?_eq_some, unescape?]
  text_cons c t u hquote hslash hline h :=
    text?_eq_some.2 (unescape?_cons hquote hslash (by rintro rfl; cases hline) (text?_eq_some.1 h))
  text_escape e he t u h := by
    refine text?_eq_some.2 (unescape?_escape (fun v => ?_) (text?_eq_some.1 h))
    simp only [Lexer.escapes, List.mem_cons, List.not_mem_nil, or_false] at he
    rcases he with rfl | rfl | rfl | rfl | rfl <;> rfl
  name c w hc hw := word?_capital hc hw
  yes := rfl
  no := rfl
  joint := by decide
  symbol_nil := rfl
  goesOn x c _ hsymbol hgoes := by
    have htable : ∀ y ∈ spellings, y.dropLast ∈ spellings → (y.getLast?.all fun d => isNameChar d = false ∧ d ≠ '"' ∧
        d ≠ '(' ∧ d ≠ '^' ∧ (d = '[' → y.dropLast = ['?']) ∧
          (d = '*' → y.dropLast = ['*'] ∨ y.dropLast = ['('])) = true := by decide +kernel
    obtain ⟨y, hy, rfl, hlast⟩ := mem_spellings_of_append hgoes
    have hall := htable y hy (isSymbol_iff.1 hsymbol)
    rw [hlast] at hall
    exact of_decide_eq_true hall
  closes x hx c := by
    have htable : ∀ y ∈ spellings, y.dropLast ∉
        [[')'], ['(', ')'], ['['], [']'], [','], ['^', '='], ['*', '*', '=']] := by decide +kernel
    rw [Bool.eq_false_iff]
    intro h
    obtain ⟨y, hy, rfl, -⟩ := mem_spellings_of_append h
    exact htable y hy hx
  openRound c h := by
    have htable : ∀ y ∈ spellings, y.dropLast = ['('] → y.getLast? = some ')' ∨ y.getLast? = some '*' := by
      decide +kernel
    obtain ⟨y, hy, hx, hlast⟩ := mem_spellings_of_append (x := ['(']) h
    simpa [hlast] using htable y hy hx
  colon c h := by
    have htable : ∀ y ∈ spellings, y.dropLast = [':'] → y.getLast? = some ':' ∨ y.getLast? = some ';' ∨
        y.getLast? = some '=' := by decide +kernel
    obtain ⟨y, hy, hx, hlast⟩ := mem_spellings_of_append (x := [':']) h
    simpa [hlast] using htable y hy hx
  power x hx c h := by
    have htable : ∀ y ∈ spellings, y.dropLast ∈ [['^'], ['*', '*']] → y.getLast? = some '=' := by decide +kernel
    obtain ⟨y, hy, rfl, hlast⟩ := mem_spellings_of_append h
    simpa [hlast] using htable y hy hx
  opens := by decide
  ends := by decide
  number_ends _ _ _ h := number?_ends h
  value_ends := by
    rintro k (⟨t, rfl | rfl⟩ | rfl | rfl) <;> rfl
  power_opens := ⟨rfl, rfl⟩

end Spreadsheet.Script
