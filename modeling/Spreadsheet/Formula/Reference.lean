import Spreadsheet.Text.Blank
import Spreadsheet.Text.Word
import Spreadsheet.Cell

/-!
# References

Where formula code refers to cells. A reference is a whole word of capital letters and digits; two of
them around a colon form a range. `scan` cuts code into references and the text between them and loses
nothing (`flatten_scan`).
-/

namespace Spreadsheet.Formula

/-- A stretch of formula code. -/
inductive Span
  /-- Text without a reference. -/
  | plain (text : Text)
  | single (token : Text)
  /-- Two references around a colon with white space. -/
  | range (first gap last : Text)
  deriving DecidableEq, Repr

def Span.text : Span → Text
  | .plain t => t
  | .single t => t
  | .range a gap b => a ++ gap ++ b

def word (t : Text) : Text := t.takeWhile Text.isWord

def afterWord (t : Text) : Text := t.dropWhile Text.isWord

theorem word_append (t : Text) : word t ++ afterWord t = t := List.takeWhile_append_dropWhile

theorem cons_word_append (c : Char) (t : Text) : c :: word t ++ afterWord t = c :: t := by
  rw [List.cons_append, word_append]

theorem isWord_head_afterWord (t : Text) : ∀ d ∈ (afterWord t).head?, Text.isWord d = false :=
  Text.head?_dropWhile t

theorem length_afterWord_le (t : Text) : (afterWord t).length ≤ t.length :=
  Text.length_dropWhile_le _ t

/-- The colon with its white space, the second reference of a range, and what follows, given the text
behind the first reference. -/
def rangeEnd? (t : Text) : Option (Text × Text × Text) :=
  match t.dropWhile Text.isBlank with
  | ':' :: u =>
    let rest := u.dropWhile Text.isBlank
    if Token.isReference (word rest) then
      some (t.takeWhile Text.isBlank ++ ':' :: u.takeWhile Text.isBlank, word rest, afterWord rest)
    else none
  | _ => none

theorem rangeEnd?_append {t gap b rest : Text} (h : rangeEnd? t = some (gap, b, rest)) :
    gap ++ b ++ rest = t := by
  unfold rangeEnd? at h
  split at h
  · next u hu =>
    simp only at h
    split at h
    · obtain ⟨rfl, rfl, rfl⟩ := by simpa using h
      calc
        _ = t.takeWhile Text.isBlank ++ (':' :: (u.takeWhile Text.isBlank ++
              (word (u.dropWhile Text.isBlank) ++ afterWord (u.dropWhile Text.isBlank)))) := by simp
        _ = t := by
          rw [word_append, List.takeWhile_append_dropWhile, ← hu, List.takeWhile_append_dropWhile]
    · simp at h
  · simp at h

theorem reference_of_rangeEnd? {t gap b rest : Text} (h : rangeEnd? t = some (gap, b, rest)) :
    Token.isReference b = true ∧ ∃ u, rest = afterWord u := by
  unfold rangeEnd? at h
  split at h
  · dsimp only at h
    split at h
    · next hb =>
      obtain ⟨-, rfl, rfl⟩ := by simpa using h
      exact ⟨hb, _, rfl⟩
    · cases h
  · cases h

theorem cons_range_append {c : Char} {t gap b rest : Text} (h : rangeEnd? (afterWord t) = some (gap, b, rest)) :
    c :: word t ++ gap ++ b ++ rest = c :: t := by
  rw [List.append_assoc, List.append_assoc, ← List.append_assoc gap, rangeEnd?_append h, cons_word_append]

theorem length_rangeEnd? {t gap b rest : Text} (h : rangeEnd? t = some (gap, b, rest)) :
    rest.length ≤ t.length := by
  have := congrArg List.length (rangeEnd?_append h)
  simp only [List.length_append] at this
  omega

/-- The references of formula code and the text between them, from left to right. -/
def scan (s : Text) : List Span :=
  match s with
  | [] => []
  | c :: t =>
    if Text.isWord c then
      if Token.isReference (c :: word t) then
        match h : rangeEnd? (afterWord t) with
        | some (gap, b, rest) =>
          have := length_rangeEnd? h
          .range (c :: word t) gap b :: scan rest
        | none => .single (c :: word t) :: scan (afterWord t)
      else .plain (c :: word t) :: scan (afterWord t)
    else .plain [c] :: scan t
termination_by s.length
decreasing_by
  all_goals
    have := length_afterWord_le t
    simp only [List.length_cons]
    omega

/-- Scanning loses nothing. -/
theorem flatten_scan (s : Text) : (scan s).flatMap Span.text = s := by
  fun_induction scan s with
  | case1 => rfl
  | case2 c t hw hr gap b rest h _ ih => rw [List.flatMap_cons, ih, Span.text, cons_range_append h]
  | case3 c t hw hr h ih => rw [List.flatMap_cons, ih, Span.text, cons_word_append]
  | case4 c t hw hr ih => rw [List.flatMap_cons, ih, Span.text, cons_word_append]
  | case5 c t hw ih => rw [List.flatMap_cons, ih, Span.text, List.singleton_append]

end Spreadsheet.Formula
