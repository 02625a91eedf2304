import Spreadsheet.Proofs.Formula.Kinds
import Spreadsheet.Proofs.Formula.Literals

/-!
# Drafts

A draft is formula text in which some stretches, its marks, stand for literals. Its source is the text with the
stretches, and filled it is the text with the literals. `Reads` reads a draft as the script language reads its
source, and takes each mark for a token of its own. Where nothing goes on with what is put next to it, the filled
draft has the tokens that were read, with those of the literals in place of the marks (`lexFrom_filled`).

A literal can only go on with a text in front of it or behind it in four ways: a quoted literal with a quoted text or a
hash, a number with a whole number and a point between them or with its sign, a list with a question mark (`Joins`), and
a whole literal with a point behind it.
-/

namespace Spreadsheet.Formula

open Script Script.Token
open Text (isDigit isLetter isCapital)

/-- A stretch of text that stands for a literal. -/
structure Mark where
  source : Text
  value : Written

/-- A character of a draft or a mark. -/
inductive Part
  | char (c : Char)
  | mark (m : Mark)

/-- Formula text with marks. -/
abbrev Draft := List Part

/-- What is read of a draft: its own tokens and its marks. -/
abbrev Reading := List (Token ⊕ Mark)

/-- The tokens that were read, with those of the literals in place of the marks. -/
def Reading.tokens (ks : Reading) : List Token := ks.flatMap fun
  | .inl k => [k]
  | .inr m => m.value.tokens

/-- The tokens of the source that was read, where each mark has its own tokens if it has any. -/
def Reading.source? (L : Lexer) : Reading → Option (List Token)
  | [] => some []
  | .inl k :: ks => (source? L ks).map (k :: ·)
  | .inr m :: ks => (L.lex m.source).bind fun ts => (source? L ks).map (ts ++ ·)

namespace Draft

def plain (t : Text) : Draft := t.map .char

/-- The text with the marks. -/
def source (M : Draft) : Text := M.flatMap fun
  | .char c => [c]
  | .mark m => m.source

/-- The text with the literals in place of the marks. -/
def filled (M : Draft) : Text := M.flatMap fun
  | .char c => [c]
  | .mark m => m.value.text

variable {t x : Text} {c : Char} {m : Mark} {M N : Draft}

@[simp] theorem source_nil : source [] = [] := rfl
@[simp] theorem filled_nil : filled [] = [] := rfl
@[simp] theorem source_char : source (.char c :: M) = c :: M.source := rfl
@[simp] theorem filled_char : filled (.char c :: M) = c :: M.filled := rfl
@[simp] theorem source_mark : source (.mark m :: M) = m.source ++ M.source := rfl
@[simp] theorem filled_mark : filled (.mark m :: M) = m.value.text ++ M.filled := rfl
@[simp] theorem source_append : source (M ++ N) = M.source ++ N.source := List.flatMap_append
@[simp] theorem filled_append : filled (M ++ N) = M.filled ++ N.filled := List.flatMap_append

@[simp] theorem source_plain : (plain t).source = t := by
  induction t with
  | nil => rfl
  | cons c t ih => exact congrArg (c :: ·) ih

@[simp] theorem filled_plain : (plain t).filled = t := by
  induction t with
  | nil => rfl
  | cons c t ih => exact congrArg (c :: ·) ih

theorem notMem_plain : .mark m ∉ plain t := by
  intro h
  obtain ⟨d, -, hd⟩ := List.mem_map.1 h
  cases hd

theorem exists_plain (M : Draft) : ∃ x N, M = plain x ++ N ∧ (N = [] ∨ ∃ m N', N = .mark m :: N') := by
  induction M with
  | nil => exact ⟨[], [], rfl, .inl rfl⟩
  | cons p M ih =>
    cases p with
    | mark m => exact ⟨[], .mark m :: M, rfl, .inr ⟨m, M, rfl⟩⟩
    | char c =>
      obtain ⟨x, N, rfl, hN⟩ := ih
      exact ⟨c :: x, N, rfl, hN⟩

end Draft

/-! ### Marks that stand apart -/

/-- A comment neither begins nor ends in the text. -/
def Silent (t : Text) : Prop := ¬ ['/', '*'] <:+: t ∧ ¬ ['*', '/'] <:+: t

/-- The text is read the same wherever it stands in front of something that does not belong to a name, and no operand
begins behind it. -/
def Apart (L : Lexer) (t : Text) : Prop :=
  ∃ ks : Option (List Token), ∀ (operand : Bool) (z : Text), (∀ c ∈ z.head?, isNameChar c = false) →
    L.lexFrom operand (t ++ z) = ks.bind fun ks => (L.lexFrom false z).map (ks ++ ·)

theorem Apart.lexFrom_append {L : Lexer} {t z : Text} (h : Apart L t) (operand : Bool)
    (hz : ∀ c ∈ z.head?, isNameChar c = false) :
    L.lexFrom operand (t ++ z) = (L.lex t).bind fun ks => (L.lexFrom false z).map (ks ++ ·) := by
  obtain ⟨ks, hks⟩ := h
  have hlex : L.lex t = ks := by
    have := hks true [] nofun
    rw [List.append_nil, Lexer.lexFrom_nil] at this
    rw [Lexer.lex, this]
    cases ks <;> simp
  rw [hks operand z hz, hlex]

/-- The source of a mark begins with a capital, no comment begins or ends in it, and it has tokens of its own. -/
structure Mark.Proper (L : Lexer) (m : Mark) : Prop where
  capital : ∃ c ∈ m.source.head?, isCapital c = true
  quiet : ∀ c ∈ m.source, c ≠ '/' ∧ c ≠ '*'
  apart : Apart L m.source

theorem Mark.Proper.exists_capital {L : Lexer} {m : Mark} (h : m.Proper L) :
    ∃ c t, m.source = c :: t ∧ isCapital c = true := by
  obtain ⟨c, hc, hcapital⟩ := h.capital
  obtain ⟨t, ht⟩ := List.head?_eq_some_iff.1 hc
  exact ⟨c, t, ht, hcapital⟩

namespace Draft

/-- Marks stand apart from the characters of names around them and from each other; `glued` tells whether such a
character stands in front of the draft. -/
def Sound (L : Lexer) : (glued : Bool) → Draft → Prop
  | _, [] => True
  | _, .char c :: M => Sound L (isNameChar c) M
  | glued, .mark m :: M =>
    glued = false ∧ m.Proper L ∧ (∀ p ∈ M.head?, ∃ c, p = .char c ∧ isNameChar c = false) ∧ Sound L false M

variable {L : Lexer} {glued : Bool} {x : Text} {c : Char} {m : Mark} {M N : Draft}

theorem Sound.of_append (h : Sound L glued (M ++ N)) : ∃ glued', Sound L glued' N := by
  induction M generalizing glued with
  | nil => exact ⟨glued, h⟩
  | cons p M ih =>
    cases p with
    | char c => exact ih h
    | mark m => exact ih h.2.2.2

theorem Sound.of_mark (h : Sound L glued (plain x ++ .mark m :: M)) :
    (∀ c ∈ x.getLast?, isNameChar c = false) ∧ m.Proper L := by
  induction x generalizing glued with
  | nil => exact ⟨nofun, h.2.1⟩
  | cons c x ih =>
    have h' : Sound L (isNameChar c) (plain x ++ .mark m :: M) := h
    obtain ⟨hlast, hproper⟩ := ih h'
    refine ⟨?_, hproper⟩
    cases x with
    | nil =>
      rintro d hd
      obtain rfl := Option.some.inj hd
      exact h.1
    | cons d x => rwa [List.getLast?_cons_cons]

/-- Behind a mark source and filled draft go on with the same character, which belongs to no name. -/
theorem Sound.behind_mark (h : Sound L glued (.mark m :: M)) :
    M.filled.head? = M.source.head? ∧ ∀ c ∈ M.filled.head?, isNameChar c = false := by
  obtain ⟨-, -, hnext, -⟩ := h
  cases M with
  | nil => exact ⟨rfl, nofun⟩
  | cons p M =>
    obtain ⟨d, rfl, hd⟩ := hnext p rfl
    exact ⟨rfl, fun c hc => Option.some.inj hc ▸ hd⟩

end Draft

/-! ### What literals begin with -/

namespace Draft

theorem begins_text (w : Written) : ∃ c t, w.text = c :: t ∧ begins c = true := by
  have hdigits (d : Digits) : ∃ c t, d.text = c :: t ∧ begins c = true := by
    obtain ⟨c, t, htext, hc⟩ := d.head_isDigit
    exact ⟨c, t, htext, by simp [begins, hc]⟩
  cases w with
  | number n =>
    cases n with
    | plain d => exact hdigits d
    | negative d => exact ⟨'(', _, rfl, rfl⟩
    | quotient neg d => exact ⟨'(', _, rfl, rfl⟩
  | bool b => cases b <;> exact ⟨_, _, rfl, rfl⟩
  | quoted t => exact ⟨'"', _, rfl, rfl⟩
  | list items => exact ⟨'[', _, rfl, rfl⟩

/-- The lexeme at the start of the draft goes on in the literal of the first mark. -/
def Open (operand : Bool) (M : Draft) : Prop :=
  ∃ x m N, M = plain x ++ .mark m :: N ∧ Joins operand x m.value.text

/-- What stands behind the literal goes on with it: a quoted text behind a quoted one, or a point behind a whole
number, unless a name or another point follows. -/
def GoesOn (w : Written) (z : Text) : Prop :=
  (∃ t, w = .quoted t ∧ z.head? = some '"') ∨
    ∃ d : Digits, w = .number (.plain d) ∧ d.fraction = none ∧ pointJoins z = true

/-- The draft is read as its source is, where each mark is a token of its own and no token goes on with what is put
next to it. Marks in comments are not read. -/
inductive Reads (L : Lexer) : (operand : Bool) → Draft → Option Reading → Prop
  | done {operand : Bool} : Reads L operand [] (some [])
  | mark {operand : Bool} {m : Mark} {M : Draft} {ks : Option Reading} (behind : ¬ GoesOn m.value M.filled)
    (rest : Reads L false M ks) : Reads L operand (.mark m :: M) (ks.map (.inr m :: ·))
  | token {operand : Bool} {x : Text} {k : Token} {M : Draft} {ks : Option Reading}
    (lexeme : L.lexeme? operand (x ++ M.source) = some (some k, M.source)) (ends : ¬ Open operand (plain x ++ M))
    (quote : x.head? = some '"' → M.filled.head? ≠ some '"') (rest : Reads L (L.opensOperand k) M ks) :
    Reads L operand (plain x ++ M) (ks.map (.inl k :: ·))
  | skip {operand : Bool} {C M : Draft} {ks : Option Reading}
    (lexeme : L.lexeme? operand (C.source ++ M.source) = some (none, M.source))
    (silent : ∀ m, .mark m ∈ C → Silent m.value.text) (rest : Reads L operand M ks) : Reads L operand (C ++ M) ks
  | malformed {operand : Bool} {c : Char} {M : Draft} (lexeme : L.lexeme? operand (c :: M.source) = none)
    (quote : quotes c = false) (ends : ¬ Open operand (.char c :: M)) : Reads L operand (.char c :: M) none

variable {L : Lexer} {operand glued : Bool} {x : Text} {m : Mark} {M N : Draft}

theorem not_open_plain (t : Text) : ¬ Open operand (plain t) := by
  rintro ⟨x, m, N, h, -⟩
  have hm : .mark m ∈ plain t := by simp [h]
  exact notMem_plain hm

theorem joins_congr {x y z : Text} (h : y.head? = z.head?) : Joins operand x y ↔ Joins operand x z := by
  simp only [Joins, NumberJoins, h]

theorem not_joins_of_isCapital {x y : Text} (h : ∃ c ∈ y.head?, isCapital c = true) : ¬ Joins operand x y := by
  obtain ⟨c, hc, hcapital⟩ := h
  have hne : ∀ d, isCapital d = false → y.head? ≠ some d := by
    intro d hd hhead
    obtain rfl := Option.mem_unique hc hhead
    rw [hcapital] at hd
    cases hd
  have hnone : ¬ ∃ d ∈ y.head?, isDigit d = true := by
    rintro ⟨d, hd, hdigit⟩
    exact hne d (isCapital_of_isDigit hdigit) hd
  have hnumber : ∀ x, ¬ NumberJoins x y := by
    rintro x ⟨-, ⟨-, d, hd, hd'⟩ | ⟨-, hd⟩⟩
    · obtain rfl := Option.mem_unique hc hd
      rw [isLetter_of_isCapital hcapital] at hd'
      cases hd'
    · exact hnone hd
  rintro (h | ⟨-, t, -, h | ⟨-, h⟩⟩ | ⟨-, h⟩ | ⟨-, h⟩)
  · exact hnumber _ h
  · exact hnumber _ h
  · exact hnone h
  · exact hne _ rfl h
  · exact hne _ rfl h

section Rules

variable (hL : L.Rules)
include hL

/-- In front of a mark a token that is neither quoted nor a comment is read as if nothing came any more, both in the
source and in the filled draft. -/
theorem lexeme?_of_mark {x : Text} (hx : x ≠ []) (hsound : Sound L glued (plain x ++ .mark m :: M))
    (hopen : ¬ Open operand (plain x ++ .mark m :: M)) (hquote : ∀ c ∈ x.head?, quotes c = false)
    (hcomment : ¬ BeginsComment x) :
    L.lexeme? operand (x ++ (m.source ++ M.source)) =
        (L.lexeme? operand x).map (fun r => (r.1, r.2 ++ (m.source ++ M.source))) ∧
      L.lexeme? operand (x ++ (m.value.text ++ M.filled)) =
        (L.lexeme? operand x).map fun r => (r.1, r.2 ++ (m.value.text ++ M.filled)) := by
  obtain ⟨hlast, hproper⟩ := hsound.of_mark
  obtain ⟨c, hc⟩ : ∃ c, x.getLast? = some c := ⟨_, List.getLast?_eq_some_getLast hx⟩
  obtain ⟨d, s, hs, hcapital⟩ := hproper.exists_capital
  obtain ⟨e, t, htext, he⟩ := begins_text m.value
  constructor
  · refine hL.lexeme?_append hc (hlast c hc) ⟨d, by rw [hs]; rfl, begins_of_isCapital hcapital⟩ ?_ hquote hcomment
    exact not_joins_of_isCapital ⟨d, by rw [hs]; rfl, hcapital⟩
  · refine hL.lexeme?_append hc (hlast c hc) ⟨e, by rw [htext]; rfl, he⟩ (fun h => hopen ⟨x, m, M, rfl, ?_⟩) hquote
      hcomment
    exact (joins_congr (by rw [htext]; rfl)).1 h

/-- A token that is read of the source is read of the filled draft. -/
theorem lexeme?_token {k : Token} (hsound : Sound L glued (plain x ++ M))
    (h : L.lexeme? operand (x ++ M.source) = some (some k, M.source)) (hopen : ¬ Open operand (plain x ++ M))
    (hquote : x.head? = some '"' → M.filled.head? ≠ some '"') :
    L.lexeme? operand (x ++ M.filled) = some (some k, M.filled) := by
  obtain ⟨u, N, rfl, rfl | ⟨m, N, rfl⟩⟩ := M.exists_plain
  · simpa using h
  have hx : x ≠ [] := by
    rintro rfl
    exact absurd (L.length_lexeme? h) (Nat.lt_irrefl _)
  have happend : plain x ++ (plain u ++ .mark m :: N) = plain (x ++ u) ++ .mark m :: N := by simp [plain]
  rw [happend] at hsound hopen
  simp only [source_append, source_plain, source_mark, filled_append, filled_plain, filled_mark,
    ← List.append_assoc x] at h hquote ⊢
  obtain ⟨f, t, htext, hf⟩ := begins_text m.value
  have hhead : (m.value.text ++ filled N).head? = m.value.text.head? := by rw [htext]; rfl
  cases hx' : x with
  | nil => exact absurd hx' hx
  | cons e x' =>
    by_cases he : quotes e = true
    · subst hx'
      refine hL.lexeme?_append_of_quotes he h (fun _ c hc => ?_) (fun hjoins => hopen ⟨_, m, N, rfl, ?_⟩) fun hdouble hu =>
        ?_
      · rw [htext] at hc
        exact Option.some.inj hc ▸ hf
      · exact (joins_congr hhead).1 hjoins
      · subst hu
        exact hquote (congrArg some hdouble)
    · rw [← hx']
      have hne : x ++ u ≠ [] := by simp [hx]
      have hcomment : ¬ BeginsComment (x ++ u) := hL.not_beginsComment fun b hb => by
        rw [hb] at h
        cases h
      have hquote : ∀ c ∈ (x ++ u).head?, quotes c = false := by
        intro c hc
        rw [hx', List.cons_append] at hc
        obtain rfl := Option.some.inj hc
        exact Bool.eq_false_iff.2 he
      obtain ⟨hsource, hfilled⟩ := lexeme?_of_mark hL hne hsound hopen hquote hcomment
      rw [hsource] at h
      obtain ⟨⟨k', r⟩, hr, hkr⟩ := Option.map_eq_some_iff.1 h
      obtain ⟨rfl, hru⟩ := Prod.mk.inj hkr
      obtain rfl : r = u := List.append_cancel_right hru
      rw [hfilled, hr]
      rfl

theorem lexeme?_malformed {c : Char} (hsound : Sound L glued (.char c :: M))
    (h : L.lexeme? operand (c :: M.source) = none) (hquote : quotes c = false)
    (hopen : ¬ Open operand (.char c :: M)) : L.lexeme? operand (c :: M.filled) = none := by
  obtain ⟨u, N, rfl, rfl | ⟨m, N, rfl⟩⟩ := M.exists_plain
  · simpa using h
  have happend : Part.char c :: (plain u ++ .mark m :: N) = plain (c :: u) ++ .mark m :: N := rfl
  rw [happend] at hsound hopen
  simp only [source_append, source_plain, source_mark, filled_append, filled_plain, filled_mark,
    ← List.cons_append] at h ⊢
  have hcomment : ¬ BeginsComment (c :: u) := hL.not_beginsComment fun b hb => by
    rw [hb] at h
    cases h
  have hhead : ∀ d ∈ (c :: u).head?, quotes d = false := fun d hd => Option.some.inj hd ▸ hquote
  obtain ⟨hsource, hfilled⟩ := lexeme?_of_mark hL (List.cons_ne_nil c u) hsound hopen hhead hcomment
  rw [hsource, Option.map_eq_none_iff] at h
  rw [hfilled, h]
  rfl

end Rules

/-! ### Comments -/

theorem afterComment_cons {d : Nat} {c : Char} {t : Text} (hopen : c = '/' → t.head? ≠ some '*')
    (hclose : c = '*' → t.head? ≠ some '/') : afterComment d (c :: t) = afterComment d t :=
  afterComment.eq_5 d c t (fun u hc ht => hopen hc (by rw [ht]; rfl)) (fun u _ hc ht => hclose hc (by rw [ht]; rfl))
    fun _ u _ hc ht => hclose hc (by rw [ht]; rfl)

/-- A text in which no comment begins or ends, and that does not end in half a mark of one, is passed over. -/
theorem afterComment_append {d : Nat} {t u : Text} (hsilent : Silent t) (hlast : ∀ c ∈ t.getLast?, c ≠ '/' ∧ c ≠ '*') :
    afterComment d (t ++ u) = afterComment d u := by
  induction t with
  | nil => rfl
  | cons c t ih =>
    have hrest : afterComment d (t ++ u) = afterComment d u := by
      cases t with
      | nil => rfl
      | cons e t =>
        rw [List.getLast?_cons_cons] at hlast
        exact ih ⟨fun h => hsilent.1 (h.trans (List.suffix_cons _ _).isInfix),
          fun h => hsilent.2 (h.trans (List.suffix_cons _ _).isInfix)⟩ hlast
    rw [List.cons_append, ← hrest]
    cases t with
    | nil => exact afterComment_cons (fun h => absurd h (hlast c rfl).1) fun h => absurd h (hlast c rfl).2
    | cons e t =>
      refine afterComment_cons ?_ ?_
      · rintro rfl he
        obtain rfl := Option.some.inj he
        exact hsilent.1 ⟨[], t, rfl⟩
      · rintro rfl he
        obtain rfl := Option.some.inj he
        exact hsilent.2 ⟨[], t, rfl⟩

theorem silent_of_quiet {t : Text} (h : ∀ c ∈ t, c ≠ '/' ∧ c ≠ '*') : Silent t :=
  ⟨fun hin => (h '/' (hin.subset (by simp))).1 rfl, fun hin => (h '/' (hin.subset (by simp))).1 rfl⟩

/-- Source and filled draft begin with the same character if either begins with one that no name or literal begins
with. -/
theorem head?_filled {c : Char} (hsound : Sound L glued M) (hc : begins c = false) :
    M.source.head? = some c ↔ M.filled.head? = some c := by
  cases M with
  | nil => rfl
  | cons p M =>
    cases p with
    | char d => rfl
    | mark m =>
      obtain ⟨-, hproper, -⟩ := hsound
      obtain ⟨d, s, hs, hcapital⟩ := hproper.exists_capital
      obtain ⟨e, t, htext, he⟩ := begins_text m.value
      have hne : d ≠ c ∧ e ≠ c := by
        refine ⟨?_, Text.ne_of_kind he hc⟩
        rintro rfl
        simp [begins, hcapital] at hc
      simp [hs, htext, hne.1, hne.2]

theorem eq_nil_of_source (hsound : Sound L glued (M ++ N)) (h : M.source = []) : M = [] := by
  cases M with
  | nil => rfl
  | cons p M =>
    cases p with
    | char c => cases h
    | mark m =>
      obtain ⟨d, s, hs, -⟩ := hsound.2.1.exists_capital
      rw [source_mark, hs] at h
      cases h

theorem length_afterComment_cons (d : Nat) (c : Char) (t : Text) : (afterComment d (c :: t)).length ≤ t.length := by
  by_cases hopen : c = '/' ∧ t.head? = some '*'
  · obtain ⟨rfl, ht⟩ := hopen
    obtain ⟨u, rfl⟩ := List.head?_eq_some_iff.1 ht
    rw [afterComment]
    exact Nat.le_succ_of_le ((suffix_afterComment _ u).length_le)
  by_cases hclose : c = '*' ∧ t.head? = some '/'
  · obtain ⟨rfl, ht⟩ := hclose
    obtain ⟨u, rfl⟩ := List.head?_eq_some_iff.1 ht
    cases d with
    | zero => exact Nat.le_succ _
    | succ d =>
      rw [afterComment]
      exact Nat.le_succ_of_le ((suffix_afterComment _ u).length_le)
  · rw [afterComment_cons (fun hc ht => hopen ⟨hc, ht⟩) fun hc ht => hclose ⟨hc, ht⟩]
    exact (suffix_afterComment d t).length_le

theorem last_text (w : Written) : ∀ c ∈ w.text.getLast?, c ≠ '/' ∧ c ≠ '*' := by
  have hdigits (d : Digits) : ∀ c ∈ d.text.getLast?, c ≠ '/' ∧ c ≠ '*' := by
    intro c hc
    rcases d.mem_text c (List.mem_of_getLast? hc) with hdigit | rfl
    · exact ⟨Text.ne_of_kind hdigit rfl, Text.ne_of_kind hdigit rfl⟩
    · decide
  have hconcat {t : Text} {c : Char} (hc : c ≠ '/' ∧ c ≠ '*') : ∀ d ∈ (t ++ [c]).getLast?, d ≠ '/' ∧ d ≠ '*' := by
    intro d hd
    rw [List.getLast?_concat] at hd
    exact Option.some.inj hd ▸ hc
  cases w with
  | number n =>
    cases n with
    | plain d => exact hdigits d
    | negative d => exact hconcat (t := '(' :: '-' :: d.text) (by decide)
    | quotient neg d =>
      have htext : (Written.number (.quotient neg d)).text =
          ('(' :: (if neg then '-' :: d.text else d.text) ++ '/' :: Digits.zeroPoint.text) ++ [')'] := by
        simp [Written.text, Numeral.text]
      rw [htext]
      exact hconcat (by decide)
  | bool b =>
    cases b with
    | true => exact hconcat (t := "tru".toList) (c := 'e') (by decide)
    | false => exact hconcat (t := "fals".toList) (c := 'e') (by decide)
  | quoted t => exact hconcat (t := '"' :: t.flatMap Text.escape) (by decide)
  | list items => exact hconcat (t := '[' :: Text.join [',', ' '] (Written.texts items)) (by decide)

/-- A character that no name or literal begins with, and behind which all of `M` is still to come, stands in `C`. -/
theorem exists_char {C : Draft} {e : Char} {t : Text} (hsound : Sound L glued (C ++ M)) (he : begins e = false)
    (h : C.source ++ M.source = e :: t) (hlen : M.source.length ≤ t.length) :
    ∃ C' : Draft, C = .char e :: C' ∧ t = C'.source ++ M.source := by
  cases C with
  | nil =>
    rw [source_nil, List.nil_append] at h
    rw [h] at hlen
    exact absurd hlen (Nat.not_succ_le_self _)
  | cons p C =>
    cases p with
    | char f =>
      obtain ⟨rfl, rfl⟩ := List.cons.inj h
      exact ⟨C, rfl, rfl⟩
    | mark m =>
      obtain ⟨f, u, hu, hcapital⟩ := hsound.2.1.exists_capital
      rw [source_mark, hu] at h
      obtain ⟨rfl, -⟩ := List.cons.inj h
      simp [begins, hcapital] at he

theorem eq_nil_of_afterComment {d : Nat} (hsound : Sound L glued M) (h : afterComment d M.source = M.source) : M = [] := by
  refine eq_nil_of_source (N := []) (by rwa [List.append_nil]) ?_
  cases hs : M.source with
  | nil => rfl
  | cons c t =>
    have hlen := length_afterComment_cons d c t
    rw [← hs, h, hs] at hlen
    exact absurd hlen (Nat.not_succ_le_self _)

/-- A comment of the source ends at the same place when it is filled with literals that neither begin nor end one. -/
theorem afterComment_filled {C : Draft} {d : Nat} (hsound : Sound L glued (C ++ M))
    (hsilent : ∀ m, .mark m ∈ C → Silent m.value.text) (h : afterComment d (C.source ++ M.source) = M.source) :
    afterComment d (C.filled ++ M.filled) = M.filled := by
  -- on the length, since the two characters that begin or end a comment come off together
  induction hn : C.length using Nat.strongRecOn generalizing C d glued with
  | _ n ih =>
  subst hn
  match C with
  | [] =>
    obtain rfl := eq_nil_of_afterComment hsound h
    exact afterComment.eq_1 d
  | .mark m :: C =>
    obtain ⟨-, hproper, -, hrest⟩ := hsound
    have hquiet : ∀ c ∈ m.source.getLast?, c ≠ '/' ∧ c ≠ '*' := fun c hc => hproper.quiet c (List.mem_of_getLast? hc)
    rw [source_mark, List.append_assoc, afterComment_append (silent_of_quiet hproper.quiet) hquiet] at h
    rw [filled_mark, List.append_assoc, afterComment_append (hsilent m (by simp)) (last_text _)]
    exact ih C.length (Nat.lt_succ_self _) hrest (fun m hm => hsilent m (List.mem_cons_of_mem _ hm)) h rfl
  | .char c :: C =>
    have hrest : Sound L (isNameChar c) (C ++ M) := hsound
    have hsilent' : ∀ m, .mark m ∈ C → Silent m.value.text := fun m hm => hsilent m (List.mem_cons_of_mem _ hm)
    have hhead (e : Char) (he : begins e = false) :
        (source C ++ M.source).head? = some e ↔ (filled C ++ M.filled).head? = some e := by
      simpa using head?_filled hrest he
    rw [source_char, List.cons_append] at h
    rw [filled_char, List.cons_append]
    -- inside the comment another one begins or ends
    have inside {e : Char} {d' : Nat} (he : begins e = false)
        (hcount : ∀ t, afterComment d (c :: e :: t) = afterComment d' t)
        (ht : (source C ++ M.source).head? = some e) : afterComment d (c :: (filled C ++ M.filled)) = M.filled := by
      obtain ⟨t, ht⟩ := List.head?_eq_some_iff.1 ht
      rw [ht, hcount] at h
      obtain ⟨C, rfl, rfl⟩ := exists_char hrest he ht (by rw [← h]; exact (suffix_afterComment _ t).length_le)
      rw [filled_char, List.cons_append, hcount]
      exact ih C.length (Nat.lt_succ_of_lt (Nat.lt_succ_self _)) hrest
        (fun m hm => hsilent' m (List.mem_cons_of_mem _ hm)) h rfl
    by_cases hopen : c = '/' ∧ (source C ++ M.source).head? = some '*'
    · obtain ⟨rfl, ht⟩ := hopen
      exact inside rfl (fun _ => rfl) ht
    by_cases hclose : c = '*' ∧ (source C ++ M.source).head? = some '/'
    · obtain ⟨rfl, ht⟩ := hclose
      cases d with
      | zero =>
        obtain ⟨t, ht⟩ := List.head?_eq_some_iff.1 ht
        rw [ht, afterComment] at h
        obtain ⟨C, rfl, htC⟩ := exists_char hrest rfl ht (by rw [h])
        obtain rfl : C = [] := by
          refine eq_nil_of_source (N := M) hrest ?_
          rw [htC] at h
          simpa using h
        rw [filled_char, List.cons_append, afterComment]
        rfl
      | succ d => exact inside rfl (fun _ => rfl) ht
    · rw [afterComment_cons (fun hc ht => hopen ⟨hc, ht⟩) fun hc ht => hclose ⟨hc, ht⟩] at h
      rw [afterComment_cons (fun hc ht => hopen ⟨hc, (hhead '*' rfl).2 ht⟩) fun hc ht => hclose ⟨hc, (hhead '/' rfl).2 ht⟩]
      exact ih C.length (Nat.lt_succ_self _) hrest hsilent' h rfl

theorem mem_join {sep : Text} {parts : List Text} {c : Char} (h : c ∈ Text.join sep parts) :
    c ∈ sep ∨ ∃ t ∈ parts, c ∈ t := by
  induction parts with
  | nil => cases h
  | cons t parts ih =>
    cases parts with
    | nil => exact .inr ⟨t, by simp, h⟩
    | cons u parts =>
      rw [Text.join, List.mem_append, List.mem_append] at h
      rcases h with (h | h) | h
      · exact .inr ⟨t, by simp, h⟩
      · exact .inl h
      · rcases ih h with hsep | ⟨v, hv, hc⟩
        · exact .inl hsep
        · exact .inr ⟨v, List.mem_cons_of_mem _ hv, hc⟩

theorem endsLine_escape (c : Char) : ∀ d ∈ Text.escape c, endsLine d = false := by
  unfold Text.escape
  split
  all_goals first
    | decide
    | (next hline hreturn _ =>
        intro d hd
        obtain rfl := List.mem_singleton.1 hd
        simp only [endsLine, Bool.or_eq_false_iff, beq_eq_false_iff_ne]
        exact ⟨hline, hreturn⟩)

theorem endsLine_digits (d : Digits) : ∀ c ∈ d.text, endsLine c = false := by
  intro c hc
  rw [Bool.eq_false_iff]
  intro hline
  simp only [endsLine, Bool.or_eq_true, beq_iff_eq] at hline
  rcases d.mem_text c hc with hdigit | rfl
  · rcases hline with rfl | rfl <;> exact absurd hdigit (by decide)
  · exact absurd hline (by decide)

theorem endsLine_numeral (n : Numeral) : ∀ c ∈ n.text, endsLine c = false := by
  intro c hc
  cases n with
  | plain d => exact endsLine_digits d c hc
  | negative d =>
    simp only [Numeral.text, List.mem_append, List.mem_cons, List.not_mem_nil, or_false] at hc
    rcases hc with (rfl | rfl | hc) | rfl
    · rfl
    · rfl
    · exact endsLine_digits d c hc
    · rfl
  | quotient neg d =>
    have hc' : c ∈ ['(', '-', '/', ')'] ∨ c ∈ d.text ∨ c ∈ Digits.zeroPoint.text := by
      cases neg <;>
        simp only [Numeral.text, List.mem_append, List.mem_cons, List.not_mem_nil, or_false, if_true,
          Bool.false_eq_true, if_false] at hc ⊢ <;> tauto
    rcases hc' with hc | hc | hc
    · simp only [List.mem_cons, List.not_mem_nil, or_false] at hc
      rcases hc with rfl | rfl | rfl | rfl <;> rfl
    · exact endsLine_digits d c hc
    · exact endsLine_digits _ c hc

theorem endsLine_text (w : Written) : ∀ c ∈ w.text, endsLine c = false := by
  induction w with
  | number n => exact endsLine_numeral n
  | bool b => cases b <;> decide
  | quoted t =>
    intro c hc
    simp only [Written.text, Text.quote, List.mem_append, List.mem_cons, List.mem_flatMap, List.not_mem_nil,
      or_false] at hc
    rcases hc with (rfl | ⟨d, -, hd⟩) | rfl
    · rfl
    · exact endsLine_escape d c hd
    · rfl
  | list items ih =>
    intro c hc
    simp only [Written.text, List.mem_append, List.mem_cons, List.not_mem_nil, or_false] at hc
    rcases hc with (rfl | hc) | rfl
    · rfl
    · rcases mem_join hc with hc | ⟨t, ht, hc⟩
      · simp only [List.mem_cons, List.not_mem_nil, or_false] at hc
        rcases hc with rfl | rfl <;> rfl
      · rw [Written.texts_eq_map] at ht
        obtain ⟨w, hw, rfl⟩ := List.mem_map.1 ht
        exact ih w hw c hc
    · rfl

theorem endsLine_filled {C : Draft} (h : ∀ c ∈ C.source, endsLine c = false) : ∀ c ∈ C.filled, endsLine c = false := by
  induction C with
  | nil => nofun
  | cons p C ih =>
    cases p with
    | char d =>
      rw [source_char, List.forall_mem_cons] at h
      exact List.forall_mem_cons.2 ⟨h.1, ih h.2⟩
    | mark m =>
      rw [source_mark, List.forall_mem_append] at h
      exact List.forall_mem_append.2 ⟨endsLine_text m.value, ih h.2⟩

/-- A line of the source ends at the same place when it is filled. -/
theorem dropLine_filled {C : Draft} (hsound : Sound L glued M)
    (h : (C.source ++ M.source).dropWhile (!endsLine ·) = M.source) :
    (C.filled ++ M.filled).dropWhile (!endsLine ·) = M.filled := by
  have htake : (C.source ++ M.source).takeWhile (!endsLine ·) = C.source := by
    have := List.takeWhile_append_dropWhile (p := (!endsLine ·)) (l := C.source ++ M.source)
    rw [h] at this
    exact List.append_cancel_right this
  have hline : ∀ c ∈ C.source, endsLine c = false := by
    intro c hc
    rw [← htake] at hc
    simpa using List.mem_takeWhile_imp hc
  have hfilled : ∀ c ∈ C.filled, (!endsLine c) = true := fun c hc => by simp [endsLine_filled hline c hc]
  rw [List.dropWhile_append_of_pos hfilled]
  have hhead : ∀ c ∈ M.source.head?, endsLine c = true := by
    intro c hc
    rw [← h] at hc
    simpa using Text.head?_dropWhile (C.source ++ M.source) c hc
  cases M with
  | nil => rfl
  | cons p M =>
    cases p with
    | char d =>
      have hd : endsLine d = true := hhead d rfl
      simp [hd]
    | mark m =>
      obtain ⟨d, u, hu, hcapital⟩ := hsound.2.1.exists_capital
      have hend : endsLine d = true := hhead d (by rw [source_mark, hu]; rfl)
      simp only [endsLine, Bool.or_eq_true, beq_iff_eq] at hend
      rcases hend with rfl | rfl <;> exact absurd hcapital (by decide)

section Rules

variable (hL : L.Rules)
include hL

/-- Behind two slashes the source and the filled draft go on to the same line break. -/
theorem skip_line {C : Draft} (hsound : Sound L glued (.char '/' :: C ++ M)) {t : Text}
    (ht : C.source ++ M.source = '/' :: t) (h : t.dropWhile (!endsLine ·) = M.source) :
    L.lexeme? operand (filled (.char '/' :: C) ++ M.filled) = some (none, M.filled) := by
  have hrest : Sound L false (C ++ M) := hsound
  have hlen : M.source.length ≤ t.length := by
    rw [← h]
    exact Text.length_dropWhile_le _ t
  obtain ⟨C, rfl, rfl⟩ := exists_char hrest rfl ht hlen
  obtain ⟨glued', hM⟩ := Sound.of_append (M := .char '/' :: C) hrest
  rw [filled_char, filled_char, List.cons_append, List.cons_append, hL.line, dropLine_filled hM h]

/-- A comment between marks of its own ends at the same place in the source and in the filled draft. -/
theorem skip_comment {C : Draft} (hsound : Sound L glued (.char '/' :: C ++ M)) {t : Text}
    (ht : C.source ++ M.source = '*' :: t) (h : afterComment 0 t = M.source)
    (hsilent : ∀ m, .mark m ∈ C → Silent m.value.text) :
    L.lexeme? operand (filled (.char '/' :: C) ++ M.filled) = some (none, M.filled) := by
  have hrest : Sound L false (C ++ M) := hsound
  have hlen : M.source.length ≤ t.length := by
    rw [← h]
    exact (suffix_afterComment 0 t).length_le
  obtain ⟨C, rfl, rfl⟩ := exists_char hrest rfl ht hlen
  rw [filled_char, filled_char, List.cons_append, List.cons_append, hL.comment,
    afterComment_filled (C := C) hrest (fun m hm => hsilent m (List.mem_cons_of_mem _ hm)) h]

theorem lexeme?_skip {C : Draft} (hsound : Sound L glued (C ++ M))
    (h : L.lexeme? operand (C.source ++ M.source) = some (none, M.source))
    (hsilent : ∀ m, .mark m ∈ C → Silent m.value.text) :
    L.lexeme? operand (C.filled ++ M.filled) = some (none, M.filled) := by
  match C with
  | [] => exact absurd (L.length_lexeme? h) (Nat.lt_irrefl _)
  | .mark m :: C =>
    -- a mark begins with a letter, and a letter begins a token
    exfalso
    obtain ⟨c, t, ht, hcapital⟩ := hsound.2.1.exists_capital
    rw [source_mark, ht, List.cons_append, List.cons_append, hL.word _ _ _ (by simp [isLetter, hcapital])] at h
    obtain ⟨_, -, hk, -⟩ := before_eq_some.1 h
    cases hk
  | .char c :: C =>
    rw [source_char, List.cons_append] at h
    by_cases hcomment : BeginsComment (c :: (source C ++ M.source))
    · obtain ⟨t, ht | ht⟩ := hcomment
      · obtain ⟨rfl, hrest⟩ := List.cons.inj ht
        rw [hrest, hL.line] at h
        exact skip_line hL hsound hrest (Prod.mk.inj (Option.some.inj h)).2
      · obtain ⟨rfl, hrest⟩ := List.cons.inj ht
        rw [hrest, hL.comment] at h
        exact skip_comment hL hsound hrest (Prod.mk.inj (Option.some.inj h)).2 fun m hm =>
          hsilent m (List.mem_cons_of_mem _ hm)
    · obtain ⟨hrest, hskip⟩ := hL.isBlank_of_lexeme? hcomment h
      have hC : C = [] := by
        have hsource : source C = [] := by simpa using hrest.symm
        exact eq_nil_of_source hsound hsource
      subst hC
      rw [filled_char, filled_nil, List.cons_append, List.nil_append, hskip]

end Rules

theorem ends_of_not_goesOn (h : ¬ GoesOn m.value M.filled)
    (hsound : Sound L glued (.mark m :: M)) : m.value.Ends M.filled where
  name := hsound.behind_mark.2
  quote t ht hhead := h (.inl ⟨t, ht, hhead⟩)
  point d hd hfraction := Bool.eq_false_iff.2 fun hpoint => h (.inr ⟨d, hd, hfraction, hpoint⟩)

/-- A filled draft has the tokens that are read of it. -/
theorem lexFrom_filled (hL : L.Rules) {ks : Option Reading} (h : Reads L operand M ks) (hsound : Sound L glued M) :
    L.lexFrom operand M.filled = ks.map Reading.tokens := by
  induction h generalizing glued with
  | done => exact Lexer.lexFrom_nil _
  | @mark operand m M ks hbehind _ ih =>
    rw [filled_mark, hL.lexFrom_written m.value (ends_of_not_goesOn hbehind hsound), ih hsound.2.2.2, Option.map_map,
      Option.map_map]
    rfl
  | @token operand x k M ks hlexeme hopen hquote _ ih =>
    obtain ⟨glued', hrest⟩ := hsound.of_append
    rw [filled_append, filled_plain, Lexer.lexFrom_token (lexeme?_token hL hsound hlexeme hopen hquote), ih hrest,
      Option.map_map, Option.map_map]
    rfl
  | @skip operand C M ks hlexeme hsilent _ ih =>
    obtain ⟨glued', hrest⟩ := hsound.of_append
    rw [filled_append, Lexer.lexFrom_skip (lexeme?_skip hL hsound hlexeme hsilent), ih hrest]
  | @malformed operand c M hlexeme hquote hopen =>
    exact Lexer.lexFrom_of_lexeme?_none (lexeme?_malformed hL hsound hlexeme hquote hopen)

/-- The source of a draft has the tokens that are read of it, if each mark has tokens. -/
theorem lexFrom_source {ks : Option Reading} (h : Reads L operand M ks) (hsound : Sound L glued M) :
    L.lexFrom operand M.source = ks.bind (Reading.source? L) := by
  induction h generalizing glued with
  | @done operand => exact Lexer.lexFrom_nil operand
  | @mark operand m M ks hbehind _ ih =>
    obtain ⟨hhead, hname⟩ := hsound.behind_mark
    rw [source_mark, hsound.2.1.apart.lexFrom_append operand (hhead ▸ hname), ih hsound.2.2.2]
    cases ks with
    | none => cases L.lex m.source <;> rfl
    | some ks => rfl
  | @token operand x k M ks hlexeme _ _ _ ih =>
    obtain ⟨glued', hrest⟩ := hsound.of_append
    rw [source_append, source_plain, Lexer.lexFrom_token hlexeme, ih hrest]
    cases ks <;> rfl
  | @skip operand C M ks hlexeme _ _ ih =>
    obtain ⟨glued', hrest⟩ := hsound.of_append
    rw [source_append, Lexer.lexFrom_skip hlexeme, ih hrest]
  | @malformed operand c M hlexeme _ _ => exact Lexer.lexFrom_of_lexeme?_none hlexeme

end Draft

end Spreadsheet.Formula
