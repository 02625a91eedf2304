import Spreadsheet.Formula.Packing
import Spreadsheet.Proofs.Text.Nesting

/-!
# Packed calls

Packing writes each call of any number of values between other brackets. `callsFrom` does so for all brackets:
`packFrom` is one case of it (`packFrom_eq`), and to write the calls between round brackets is another, which only
mends those that the text closes with a square one.
-/

namespace Spreadsheet.Formula

open Text (Mode isIdent isGap)

/-- The text with the arguments of calls of any number of values between `opening` and `closing`; `glued` tells
whether the character before it belongs to a name or is a point. -/
def callsFrom (opening closing : Text) (glued : Bool) (s : Text) : Text :=
  match s with
  | [] => []
  | c :: t =>
    if c = '"' then
      have := Text.length_splitLiteral_le t
      c :: (Text.splitLiteral t).1 ++ callsFrom opening closing false (Text.splitLiteral t).2
    else if startsName glued c then
      have := Text.length_dropWhile_le isIdent t
      match h : packable? (c :: t.takeWhile isIdent) (t.dropWhile isIdent) with
      | some (gap, inner, rest) =>
        have := length_packable? h
        c :: t.takeWhile isIdent ++ gap ++ opening ++ callsFrom opening closing false inner ++ closing ++
          callsFrom opening closing false rest
      | none => c :: t.takeWhile isIdent ++ callsFrom opening closing true (t.dropWhile isIdent)
    else c :: callsFrom opening closing (glues c) t
termination_by s.length
decreasing_by all_goals simp only [List.length_cons]; omega

variable {opening closing : Text} {glued : Bool} {c : Char} {t u gap inner rest : Text}

theorem callArguments?_of_round (h : t.dropWhile isGap = '(' :: u) :
    callArguments? t = (Text.bracketed? u).map fun p => (t.takeWhile isGap, p.1, p.2) := by
  rw [callArguments?, h]
  rfl

theorem callArguments?_of_ne (h : (t.dropWhile isGap).head? ≠ some '(') : callArguments? t = none := by
  unfold callArguments?
  split
  · next hround => exact absurd (by rw [hround]; rfl) h
  · rfl

theorem packable?_eq_some_iff {name : Text} : packable? name t = some (gap, inner, rest) ↔
    Script.isVariadicName name = true ∧ (∀ c ∈ gap, isGap c = true) ∧
      ∃ u, t = gap ++ '(' :: u ∧ Text.bracketed? u = some (inner, rest) := by
  rw [packable?]
  constructor
  · intro h
    obtain ⟨hname, h⟩ := Option.ite_none_right_eq_some.1 h
    unfold callArguments? at h
    split at h
    · next u hu =>
      obtain ⟨⟨a, b⟩, hb, hsome⟩ := Option.map_eq_some_iff.1 h
      obtain ⟨rfl, rfl, rfl⟩ := by simpa using hsome
      refine ⟨hname, fun c => List.mem_takeWhile_imp, u, ?_, hb⟩
      rw [← hu, List.takeWhile_append_dropWhile]
    · cases h
  · rintro ⟨hname, hgap, u, rfl, hu⟩
    have hround : ('(' :: u).takeWhile isGap = [] ∧ ('(' :: u).dropWhile isGap = '(' :: u := by
      simp [show isGap '(' = false by decide]
    rw [if_pos hname, callArguments?_of_round (u := u) (by rw [List.dropWhile_append_of_pos hgap, hround.2]), hu,
      List.takeWhile_append_of_pos hgap, hround.1, List.append_nil]
    rfl

theorem callsFrom_literal (glued : Bool) (t : Text) :
    callsFrom opening closing glued ('"' :: t) =
      '"' :: (Text.splitLiteral t).1 ++ callsFrom opening closing false (Text.splitLiteral t).2 := by
  rw [callsFrom, if_pos rfl]

theorem callsFrom_other (hquote : c ≠ '"') (hname : startsName glued c = false) :
    callsFrom opening closing glued (c :: t) = c :: callsFrom opening closing (glues c) t := by
  rw [callsFrom, if_neg hquote, if_neg (by simp [hname])]

theorem ne_quote_of_startsName (h : startsName glued c = true) : c ≠ '"' := by
  rintro rfl
  simp [startsName, show isIdent '"' = false by decide] at h

theorem callsFrom_call (hname : startsName glued c = true)
    (h : packable? (c :: t.takeWhile isIdent) (t.dropWhile isIdent) = some (gap, inner, rest)) :
    callsFrom opening closing glued (c :: t) = c :: t.takeWhile isIdent ++ gap ++ opening ++
      callsFrom opening closing false inner ++ closing ++ callsFrom opening closing false rest := by
  rw [callsFrom, if_neg (ne_quote_of_startsName hname), if_pos hname]
  dsimp only
  split
  · next h' =>
    rw [h] at h'
    obtain ⟨rfl, rfl, rfl⟩ := by simpa using h'
    rfl
  · next h' => simp [h] at h'

theorem callsFrom_name (hname : startsName glued c = true)
    (h : packable? (c :: t.takeWhile isIdent) (t.dropWhile isIdent) = none) :
    callsFrom opening closing glued (c :: t) =
      c :: t.takeWhile isIdent ++ callsFrom opening closing true (t.dropWhile isIdent) := by
  rw [callsFrom, if_neg (ne_quote_of_startsName hname), if_pos hname]
  dsimp only
  split
  · next h' => simp [h] at h'
  · rfl

/-- Packing puts square brackets inside the round ones. -/
theorem packFrom_eq (glued : Bool) (s : Text) : packFrom glued s = callsFrom ['(', '['] [']', ')'] glued s := by
  fun_induction packFrom glued s with
  | case1 => rw [callsFrom]
  | case2 glued t _ ih => rw [callsFrom_literal, ih]
  | case3 glued c t hquote hname name _ gap inner rest h _ ih₁ ih₂ =>
    rw [callsFrom_call hname h, ih₁, ih₂]
  | case4 glued c t hquote hname name _ h ih => rw [callsFrom_name hname h, ih]
  | case5 glued c t hquote hname ih => rw [callsFrom_other hquote (Bool.eq_false_iff.2 hname), ih]

end Spreadsheet.Formula
