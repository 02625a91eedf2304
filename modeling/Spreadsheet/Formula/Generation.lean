import Spreadsheet.Text.Blank
import Spreadsheet.Text.Bracket

/-!
# Generation calls

A formula that is nothing but a call of `LLM` asks for generated content. `generationArguments?` splits
such a call into its arguments.
-/

namespace Spreadsheet

structure Request where
  model : Text
  prompt : Text
  maxOutputTokens : Nat
  deriving DecidableEq, Repr

/-- Why no content was generated. -/
inductive GenerationError
  | unavailable
  | rejected (reason : Text)
  | timeout
  deriving DecidableEq, Repr

def GenerationError.message : GenerationError → Text
  | unavailable => "content generation unavailable: no active credential".toList
  | rejected reason => "content generation rejected: ".toList ++ reason
  | timeout => "content generation timed out".toList

namespace Formula

def generationName : Text := ['L', 'L', 'M']

/-- The arguments of a formula that is one generation call, without the white space around them. -/
def generationArguments? (body : Text) : Option (List Text) := do
  let t ← Text.after? generationName (Text.trimStart body)
  let t ← Text.after? ['('] (Text.trimStart t)
  let (inner, rest) ← Text.bracketed? t
  if !Text.blank rest then none
  else if Text.blank inner then some []
  else some ((Text.topLevel inner).map Text.trim)

/-- A generation call is its name and one bracket, with nothing but white space around them. -/
theorem exists_of_generationArguments? {body : Text} {args : List Text} (h : generationArguments? body = some args) :
    ∃ lead gap t inner rest, Text.blank lead = true ∧ Text.blank gap = true ∧ Text.blank rest = true ∧
      body = lead ++ generationName ++ gap ++ '(' :: t ∧ Text.bracketed? t = some (inner, rest) ∧
      args = if Text.blank inner then [] else (Text.topLevel inner).map Text.trim := by
  obtain ⟨t, ht, h⟩ := Option.bind_eq_some_iff.1 h
  obtain ⟨u, hu, h⟩ := Option.bind_eq_some_iff.1 h
  obtain ⟨⟨inner, rest⟩, hbracket, h⟩ := Option.bind_eq_some_iff.1 h
  obtain ⟨hrest, h⟩ := Option.ite_none_left_eq_some.1 h
  have hbody := List.takeWhile_append_dropWhile (p := Text.isBlank) (l := body)
  have ht' := List.takeWhile_append_dropWhile (p := Text.isBlank) (l := t)
  rw [show body.dropWhile Text.isBlank = _ from Text.eq_append_of_after? ht, ← ht',
    show t.dropWhile Text.isBlank = _ from Text.eq_append_of_after? hu] at hbody
  refine ⟨body.takeWhile Text.isBlank, t.takeWhile Text.isBlank, u, inner, rest, List.all_takeWhile, List.all_takeWhile,
    by simpa using hrest, by simpa using hbody.symm, hbracket, ?_⟩
  simpa only [← apply_ite some, Option.some.injEq, eq_comm] using h

end Formula

end Spreadsheet
