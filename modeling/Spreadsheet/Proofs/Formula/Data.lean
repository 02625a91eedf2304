import Spreadsheet.Proofs.Formula.Calls
import Spreadsheet.Proofs.Script.Lexer

/-!
# Data in formulas

`Data` are the values that a formula can be given as a literal: texts, truth values, numbers and lists of these. The
script for a literal is lexed into tokens with the structure of the data, in which lists of one item stand for the
item and every finite number is one float (`lex_desugar_literal`). What the float is worth is compared as a rational
with the plain decimal text of the number (`plainValue?`).
-/

namespace Spreadsheet

open Text (isDigit)

def Decimal.rational (d : Decimal) : Rat := mkRat (d.digits * (tenPow d.exponent).1) (tenPow d.exponent).2

/-- The exact value of digits with or without a point and more digits behind it. -/
def unsignedValue? (t : Text) : Option Rat :=
  let whole := t.takeWhile isDigit
  if whole = [] then none
  else match t.dropWhile isDigit with
    | [] => some (mkRat (Text.value whole) 1)
    | '.' :: fraction =>
      if fraction ≠ [] ∧ fraction.all isDigit then
        some (mkRat (Text.value (whole ++ fraction)) (Nat.pow 10 fraction.length))
      else none
    | _ => none

/-- The exact value of a plain decimal text, which has no exponent. -/
def plainValue? : Text → Option Rat
  | '-' :: t => (unsignedValue? t).map (- ·)
  | t => unsignedValue? t

namespace Script

/-- Values without structure but lists. -/
inductive Data
  | text (t : Text)
  | bool (b : Bool)
  | int (n : Int)
  | float (x : Float)
  | list (items : List Data)

namespace Data

mutual

def value : Data → Value
  | text t => .text t
  | bool b => .bool b
  | int n => .int n
  | float x => .float x
  | list items => .array (values items)

def values : List Data → List Value
  | [] => []
  | d :: rest => value d :: values rest

end

mutual

/-- The data with the item in place of every list of one item. -/
def unwrapped : Data → Data
  | list [d] => unwrapped d
  | list items => list (unwrappedItems items)
  | d => d

def unwrappedItems : List Data → List Data
  | [] => []
  | d :: rest => unwrapped d :: unwrappedItems rest

end

/-- The tokens are those of a number: one float for a finite one, in round brackets if it is negative, and otherwise
a quotient by zero. The float is worth what the plain decimal text of the number is. -/
def NumberReads (x : Float) (ks : List Token) : Prop :=
  match Double.ofFloat x with
  | .nan => ks = [.symbol .openRound, .decimal false ⟨0, -1⟩, .symbol (.operator .divide), .decimal false ⟨0, -1⟩,
      .symbol .closeRound]
  | .infinite negative => ks = [.symbol .openRound, .decimal negative ⟨10, -1⟩, .symbol (.operator .divide),
      .decimal false ⟨0, -1⟩, .symbol .closeRound]
  | .finite negative m _ => ∃ d : Decimal,
      if negative ∧ m ≠ 0 then
        plainValue? (NumberFormat.display.write x) = some (-d.rational) ∧
          ks = [.symbol .openRound, .decimal true d, .symbol .closeRound]
      else plainValue? (NumberFormat.display.write x) = some d.rational ∧ ks = [.decimal false d]

mutual

/-- The tokens are those of the data. -/
def Reads : Data → List Token → Prop
  | text t, ks => ks = [.text t]
  | bool b, ks => ks = [.keyword (if b then .yes else .no)]
  | int n, ks => NumberReads (Float.ofInt n) ks
  | float x, ks => NumberReads x ks
  | list items, ks => ∃ inner, ItemsRead items inner ∧ ks = .symbol .openSquare :: inner ++ [.symbol .closeSquare]

/-- The tokens are those of the items of a list, with commas between them. -/
def ItemsRead : List Data → List Token → Prop
  | [], ks => ks = []
  | [d], ks => Reads d ks
  | d :: rest, ks => ∃ first others, Reads d first ∧ ItemsRead rest others ∧ ks = first ++ .symbol .comma :: others

end

end Data

end Script

/-! ### Numbers -/

namespace Digits

open Script

theorem unsignedValue?_text (d : Digits) : unsignedValue? d.text =
    some (mkRat (Text.value (d.whole ++ d.fraction.getD [])) (Nat.pow 10 (d.fraction.getD []).length)) := by
  unfold unsignedValue?
  cases hfraction : d.fraction with
  | none =>
    have htext : d.text = d.whole := by simp [text, hfraction]
    have htake : d.whole.takeWhile isDigit = d.whole := List.takeWhile_eq_self_iff.2 d.whole_digit
    have hdrop : d.whole.dropWhile isDigit = [] := List.dropWhile_eq_nil_iff.2 d.whole_digit
    simp only [htext, htake, hdrop, if_neg d.whole_ne, Option.getD_none, List.append_nil]
    rfl
  | some t =>
    have htext : d.text = d.whole ++ '.' :: t := by simp [text, hfraction]
    have hread := Text.takeWhile_append_of_head? (z := '.' :: t) d.whole_digit fun c hc => Option.some.inj hc ▸ rfl
    have ht : t ≠ [] ∧ t.all isDigit = true :=
      ⟨fun h => d.fraction_ne (by rw [hfraction, h]), List.all_eq_true.2 (d.fraction_digit t hfraction)⟩
    simp only [htext, hread.1, hread.2, if_neg d.whole_ne, if_pos ht, Option.getD_some]

theorem plainValue?_text (d : Digits) : plainValue? d.text = unsignedValue? d.text := by
  obtain ⟨c, t, htext, hc⟩ := d.head_isDigit
  have hminus : c ≠ '-' := Text.ne_of_kind hc rfl
  rw [htext]
  unfold plainValue?
  split
  · next h => exact absurd (List.cons.inj h).1 hminus
  · rfl

/-- A fraction of zero does not change the value. -/
theorem exists_token_promote (d : Digits) (negative : Bool) : ∃ e : Decimal,
    d.promote.token negative = .decimal negative e ∧ unsignedValue? d.text = some e.rational := by
  rw [unsignedValue?_text]
  have hrational : ∀ t : Text, (Decimal.ofParts d.whole t 0).rational =
      mkRat (Text.value (d.whole ++ t)) (Nat.pow 10 t.length) := by
    intro t
    simp [Decimal.ofParts, Decimal.rational, Decimal.tenPow]
  cases hfraction : d.fraction with
  | some t =>
    refine ⟨Decimal.ofParts d.whole t 0, ?_, ?_⟩
    · simp [promote, token, hfraction]
    · rw [hrational, Option.getD_some]
  | none =>
    refine ⟨Decimal.ofParts d.whole ['0'] 0, ?_, ?_⟩
    · simp [promote, token, hfraction]
    · have hvalue : Text.value (d.whole ++ ['0']) = 10 * Text.value d.whole := by simp [Text.value_append, Text.digit]
      rw [hrational, hvalue, Option.getD_none, List.append_nil]
      refine congrArg some ((Rat.mkRat_eq_iff (by decide) (by decide)).2 ?_)
      simp
      omega

end Digits

namespace Script

theorem numberReads_ofFloat (x : Float) : Data.NumberReads x ((Numeral.ofFloat x).map Digits.promote).tokens := by
  unfold Data.NumberReads Numeral.ofFloat NumberFormat.write NumberFormat.display
  cases Double.ofFloat x with
  | nan => rfl
  | infinite negative => cases negative <;> rfl
  | finite negative m q =>
    by_cases hm : m = 0
    · obtain ⟨e, htoken, hvalue⟩ := Digits.zero.exists_token_promote false
      refine ⟨e, ?_⟩
      simp only [hm, if_true, ne_eq, not_true, and_false, if_false]
      exact ⟨by cases negative <;> exact hvalue, by rw [Numeral.map, Numeral.tokens, htoken]⟩
    · obtain ⟨e, htoken, hvalue⟩ := (Digits.ofDecimal (.shortest m q)).exists_token_promote negative
      have htext := (Digits.ofDecimal (.shortest m q)).plainValue?_text
      rw [hvalue, Digits.text_ofDecimal] at htext
      rw [Digits.text_ofDecimal] at hvalue
      refine ⟨e, ?_⟩
      cases negative with
      | false =>
        simp only [hm, if_false, Bool.false_eq_true, false_and]
        exact ⟨by simpa using htext, by rw [Numeral.map, Numeral.tokens, htoken]⟩
      | true =>
        simp only [hm, if_false, ne_eq, not_false_eq_true, and_self, if_true]
        exact ⟨by simp [plainValue?, hvalue], by rw [Numeral.map, Numeral.tokens, htoken]⟩

/-! ### Lists -/

namespace Data

mutual

theorem reads_unwrapped : ∀ d : Data, d.unwrapped.Reads d.value.written.promote.tokens
  | text _ => rfl
  | bool _ => rfl
  | int n => numberReads_ofFloat (Float.ofInt n)
  | float x => numberReads_ofFloat x
  | list [] => ⟨[], rfl, rfl⟩
  | list [d] => reads_unwrapped d
  | list (d :: e :: rest) => by
    have hunwrapped : (list (d :: e :: rest)).unwrapped = list (unwrappedItems (d :: e :: rest)) := by
      rw [unwrapped]
      nofun
    have hwritten : (list (d :: e :: rest)).value.written = .list (Value.writtenItems (values (d :: e :: rest))) := by
      rw [value, Value.written]
      nofun
    rw [hunwrapped, hwritten]
    exact ⟨_, itemsRead_unwrapped (d :: e :: rest), rfl⟩

theorem itemsRead_unwrapped : ∀ items : List Data, ItemsRead (unwrappedItems items)
    (Written.itemTokens (Written.mapItems Digits.promote (Value.writtenItems (values items))))
  | [] => rfl
  | [d] => reads_unwrapped d
  | d :: e :: rest => ⟨_, _, reads_unwrapped d, itemsRead_unwrapped (e :: rest), Written.itemTokens_cons_cons _ _ _⟩

end

end Data

end Script

namespace Formula

open Script (Data Value Lexer)

theorem desugar_literal (at_ : Option Cell) (v : Value) : desugar at_ v.literal = v.written.promote.text := by
  have hpack := scans_packFrom.written v.written [] loose_nil
  have hcode := (scans_desugarCode at_).written v.written [] loose_nil
  rw [List.append_nil, packFrom, List.append_nil, Script.Written.map_id] at hpack
  rw [List.append_nil, Text.mapCode_nil, List.append_nil] at hcode
  rw [v.literal_eq, desugar, pack, hpack]
  exact hcode

/-- Data are read back from their literal: lexing the script for it gives the tokens of the data with lists of one item
unwrapped, where texts are the texts themselves and every finite number is one float of the value that its plain
decimal text has. -/
theorem lex_desugar_literal {L : Lexer} (hL : L.Rules) (at_ : Option Cell) (d : Data) :
    ∃ ks, L.lex (desugar at_ d.value.literal) = some ks ∧ d.unwrapped.Reads ks := by
  refine ⟨_, ?_, d.reads_unwrapped⟩
  have hread : L.lexFrom true (d.value.written.promote.text ++ []) = _ :=
    hL.lexFrom_written d.value.written.promote (Script.Written.ends_nil _)
  rw [List.append_nil, Lexer.lexFrom_nil, Option.map_some, List.append_nil] at hread
  rw [desugar_literal]
  exact hread

/-- A quotation mark in a list of its own, and a truth value. -/
theorem lex_desugar_literal_nested : Script.lexer.Rules ∧
    Script.lexer.lex (desugar none (Data.list [.list [.text ['"']], .bool true]).value.literal) =
      some [.symbol .openSquare, .text ['"'], .symbol .comma, .keyword .yes, .symbol .closeSquare] := by
  refine ⟨Script.lexer_rules, ?_⟩
  obtain ⟨ks, hks, inner, ⟨_, _, rfl, rfl, rfl⟩, rfl⟩ :=
    lex_desugar_literal Script.lexer_rules none (Data.list [.list [.text ['"']], .bool true])
  exact hks

end Formula

end Spreadsheet
