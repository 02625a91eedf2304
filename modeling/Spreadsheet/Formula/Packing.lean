import Spreadsheet.Text.Blank
import Spreadsheet.Text.Bracket
import Spreadsheet.Script.Function

/-!
# Packing arguments

Functions of any number of values take one array, so `sum(a, b)` is written `sum([a, b])`. `pack` puts
the square brackets around the arguments of every such call outside literals, also of a call inside
another. The closing bracket that it finds may be of either kind; it is written as a round one.
-/

namespace Spreadsheet.Formula

open Text (isIdent isDigit isGap)

/-- A name may start here: not at a digit, and not where the character before belongs to a name or is
a point. -/
def startsName (glued : Bool) (c : Char) : Bool := isIdent c && !isDigit c && !glued

/-- A character that a following name is glued to. -/
def glues (c : Char) : Bool := isIdent c || c == '.'

/-- The arguments of a call whose name has just been read: the space in front of the bracket, what the
bracket encloses, and what follows. -/
def callArguments? (t : Text) : Option (Text × Text × Text) :=
  match t.dropWhile isGap with
  | '(' :: u => (Text.bracketed? u).map fun (inner, rest) => (t.takeWhile isGap, inner, rest)
  | _ => none

theorem length_callArguments? {t gap inner rest : Text}
    (h : callArguments? t = some (gap, inner, rest)) :
    inner.length < t.length ∧ rest.length < t.length := by
  unfold callArguments? at h
  split at h
  · next u hu =>
    obtain ⟨⟨a, b⟩, hb, h⟩ := Option.map_eq_some_iff.1 h
    obtain ⟨-, rfl, rfl⟩ := by simpa using h
    have h1 := Text.length_bracketed? hb
    have h2 := Text.length_dropWhile_le isGap t
    rw [hu] at h2
    simp only [List.length_cons] at h2
    omega
  · simp at h

def packable? (name t : Text) : Option (Text × Text × Text) :=
  if Script.isVariadicName name then callArguments? t else none

theorem length_packable? {name t gap inner rest : Text}
    (h : packable? name t = some (gap, inner, rest)) :
    inner.length < t.length ∧ rest.length < t.length := by
  unfold packable? at h
  split at h
  · exact length_callArguments? h
  · simp at h

/-- Packs the arguments of calls in a text; `glued` tells whether the character before it belongs to a
name or is a point. -/
def packFrom (glued : Bool) (s : Text) : Text :=
  match s with
  | [] => []
  | c :: t =>
    if c = '"' then
      have := Text.length_splitLiteral_le t
      c :: (Text.splitLiteral t).1 ++ packFrom false (Text.splitLiteral t).2
    else if startsName glued c then
      let name := c :: t.takeWhile isIdent
      have := Text.length_dropWhile_le isIdent t
      match h : packable? name (t.dropWhile isIdent) with
      | some (gap, inner, rest) =>
        have := length_packable? h
        name ++ gap ++ ['(', '['] ++ packFrom false inner ++ [']', ')'] ++ packFrom false rest
      | none => name ++ packFrom true (t.dropWhile isIdent)
    else c :: packFrom (glues c) t
termination_by s.length
decreasing_by all_goals simp only [List.length_cons]; omega

/-- The text with the arguments of calls of any number of values packed into arrays. -/
def pack (s : Text) : Text := packFrom false s

end Spreadsheet.Formula
