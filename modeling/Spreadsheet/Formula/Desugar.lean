import Spreadsheet.Cell
import Spreadsheet.Text.Blank
import Spreadsheet.Text.Word
import Spreadsheet.Formula.Packing

/-!
# From formulas to scripts

A formula whose references have been replaced becomes a script: arguments are packed, `ROW()` and
`COL()` become the coordinates of the evaluating cell counted from 1, whole numbers become floats, and
`^` becomes `**`. Literals stay as they are.
-/

namespace Spreadsheet.Formula

open Text (isIdent isDigit isBlank isWord)

/-- What follows a call without arguments, given the text at its start. -/
def emptyCall? (name s : Text) : Option Text := do
  let t ← Text.after? (name ++ ['(']) s
  Text.after? [')'] (t.dropWhile isBlank)

theorem emptyCall?_eq_some_iff {name s rest : Text} : emptyCall? name s = some rest ↔
    ∃ z, z.all isBlank = true ∧ s = name ++ '(' :: (z ++ ')' :: rest) := by
  constructor
  · intro h
    obtain ⟨t, ht, h⟩ := Option.bind_eq_some_iff.1 h
    refine ⟨t.takeWhile isBlank, List.all_takeWhile, ?_⟩
    have hs := Text.eq_append_of_after? ht
    have hclose := Text.eq_append_of_after? h
    rw [hs, List.append_assoc, List.singleton_append, ← List.singleton_append (x := ')'), ← hclose,
      List.takeWhile_append_dropWhile]
  · rintro ⟨z, hz, rfl⟩
    have hdrop : (z ++ ')' :: rest).dropWhile isBlank = ')' :: rest := by
      rw [List.dropWhile_append_of_pos (List.all_eq_true.1 hz)]
      rfl
    have hopen : name ++ '(' :: (z ++ ')' :: rest) = name ++ ['('] ++ (z ++ ')' :: rest) := by simp
    rw [emptyCall?, hopen, Text.after?_append]
    simp only [Option.bind_eq_bind, Option.bind_some, hdrop]
    rfl

theorem length_emptyCall? {name s rest : Text} (h : emptyCall? name s = some rest) :
    rest.length < s.length := by
  obtain ⟨z, -, rfl⟩ := emptyCall?_eq_some_iff.1 h
  simp only [List.length_append, List.length_cons]
  omega

/-- Replaces every call of `name` without arguments that is not glued to a word in front of it;
`glued` tells whether the character before the text belongs to a word. -/
def replaceFrom (name by_ : Text) (glued : Bool) (s : Text) : Text :=
  match s with
  | [] => []
  | c :: t =>
    match h : if glued then none else emptyCall? name (c :: t) with
    | some rest =>
      have : rest.length < (c :: t).length := by
        cases glued
        · exact length_emptyCall? (by simpa using h)
        · simp at h
      by_ ++ replaceFrom name by_ false rest
    | none => c :: replaceFrom name by_ (isWord c) t
termination_by s.length
decreasing_by
  · exact this
  · exact Nat.lt_succ_self _

/-- Replaces `ROW()` and `COL()` in code by the coordinates of a cell, counted from 1. -/
def placeCoordinates (c : Cell) (code : Text) : Text :=
  replaceFrom "COL".toList (Text.decimal (c.col + 1)) false
    (replaceFrom "ROW".toList (Text.decimal (c.row + 1)) false code)

/-- Makes whole numbers in code floats and `^` a power. Digits that are glued to a name or a point on
either side stay as they are; `glued` tells whether the character before the text is one of those. -/
def promoteFrom (glued : Bool) (s : Text) : Text :=
  match s with
  | [] => []
  | c :: t =>
    if c = '^' then '*' :: '*' :: promoteFrom false t
    else if isDigit c then
      have := Text.length_dropWhile_le isDigit t
      let rest := t.dropWhile isDigit
      let alone := !glued && !(rest.head?.any glues)
      c :: t.takeWhile isDigit ++ (if alone then ['.', '0'] else []) ++ promoteFrom true rest
    else c :: promoteFrom (glues c) t
termination_by s.length

def promote (code : Text) : Text := promoteFrom false code

/-- The script for a formula whose references have been replaced. Outside a cell there are no
coordinates. -/
def desugar (c : Option Cell) (formula : Text) : Text :=
  Text.mapCode (fun code => promote (match c with
    | some c => placeCoordinates c code
    | none => code)) (pack formula)

end Spreadsheet.Formula
