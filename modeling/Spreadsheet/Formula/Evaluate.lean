import Spreadsheet.Grid
import Spreadsheet.Markup
import Spreadsheet.Formula.Desugar
import Spreadsheet.Formula.Outcome
import Spreadsheet.Formula.Reference
import Spreadsheet.Script.Language

/-!
# Evaluating formulas

A reference stands for the value of the cell it names, so evaluation follows references from formula to
formula. A `Trail` records the formulas on the way, which finds cycles, and the values found so far.
The definitions below take the value of a cell as a parameter; `cellValue` ties the knot and recurses
on the number of formulas that may still be entered.
-/

namespace Spreadsheet.Formula

open Script (Value)

/-- What an evaluation has seen. -/
structure Trail where
  /-- The formulas being evaluated, the innermost first. -/
  visiting : List Cell
  /-- The values of cells that have been found. -/
  found : List (Cell × Value)

namespace Trail

def empty : Trail := ⟨[], []⟩

def value? (t : Trail) (c : Cell) : Option Value := t.found.lookup c

def enter (c : Cell) (t : Trail) : Trail := { t with visiting := c :: t.visiting }

/-- Records that the innermost formula is done. -/
def leave (t : Trail) : Trail := { t with visiting := t.visiting.tail }

def record (c : Cell) (v : Value) (t : Trail) : Trail := { t with found := (c, v) :: t.found }

end Trail

/-- A step of an evaluation: it may fail, and it leaves a trail in either case. -/
abbrev Walk := ExceptT Error (StateM Trail)

namespace Walk

/-- Evaluates with a formula on the trail, and takes it off whatever comes of it. -/
def within {α : Type} (c : Cell) (w : Walk α) : Walk α := ExceptT.mk do
  modify (Trail.enter c)
  let result ← w.run
  modify Trail.leave
  return result

end Walk

/-- What a formula evaluates to. -/
inductive Result
  | value (v : Value)
  | generate (r : Request)

/-- The text of a formula, if a content is one. -/
def body? : Text → Option Text
  | '=' :: body => some body
  | _ => none

/-- A grid to evaluate in, how many tokens may be generated if content can be generated at all, and the
language of the scripts that formulas become. -/
structure Setting where
  grid : Grid
  generation : Option Nat := none
  language : Script.Language := Script.language

namespace Setting

variable (s : Setting)

def locate (token : Text) : Walk Cell :=
  match s.grid.locate? token with
  | some c => pure c
  | none => throw (.outside token)

/-- The formula text that a stretch of code becomes: references become the values of their cells. -/
def substituteSpan (value : Cell → Walk Value) : Span → Walk Text
  | .plain t => pure t
  | .single token => do
    let c ← s.locate token
    return (← value c).literal
  | .range first _ last => do
    let a ← s.locate first
    let b ← s.locate last
    return (Value.array (← (Area.spanning a b).cells.mapM value)).literal

def substitutePiece (value : Cell → Walk Value) : Text.Piece → Walk Text
  | .quoted t => pure t
  | .code t => do return (← (scan t).mapM (s.substituteSpan value)).flatten

/-- A formula with the values of cells in place of its references. -/
def substitute (value : Cell → Walk Value) (body : Text) : Walk Text := do
  return (← (Text.pieces body).mapM (s.substitutePiece value)).flatten

/-- The value of an expression in a cell, or outside all cells. -/
def expression (value : Cell → Walk Value) (c : Option Cell) (body : Text) : Walk Value := do
  let script := desugar c (← s.substitute value body)
  match s.language.run script with
  | .ok v => pure v
  | .error e => throw (.script e)

/-- The request that a generation call makes: a prompt and a model. -/
def request (value : Cell → Walk Value) (c : Option Cell) (args : List Text) : Walk Request :=
  match args with
  | [prompt, model] =>
    match s.generation with
    | none => throw .generationUnavailable
    | some limit => do
      let prompt ← s.expression value c prompt
      let model ← s.expression value c model
      return { model := model.display, prompt := prompt.display, maxOutputTokens := limit }
  | _ => throw .generationArguments

def formula (value : Cell → Walk Value) (c : Option Cell) (body : Text) : Walk Result :=
  match generationArguments? body with
  | some args => do return .generate (← s.request value c args)
  | none => do return .value (← s.expression value c body)

/-- The content of a cell without its formatting. -/
def content (c : Cell) : Text := (Styled.parse (s.grid.raw c)).content

/-- The value that a reference to a cell stands for, while `depth` more formulas may be entered. -/
def cellValue : (depth : Nat) → Cell → Walk Value
  | depth, c => do
    match (← get).value? c with
    | some v => return v
    | none =>
      let v ← match body? (s.content c) with
        | none => pure (Value.ofRaw (s.content c))
        | some body =>
          if c ∈ (← get).visiting then throw (.circular c)
          else
            match depth with
            | 0 => throw (.tooDeep c)
            | depth + 1 =>
              match ← Walk.within c (s.formula (cellValue depth) (some c) body) with
              | .value v => pure v
              | .generate _ => throw .pending
      modify (Trail.record c v)
      return v

/-- The outcome of an evaluation that starts with an empty trail. -/
def outcome (w : Walk Result) : Outcome :=
  match (w.run Trail.empty).1 with
  | .ok (.value v) => .value v
  | .ok (.generate r) => .generate r
  | .error e => .error e

/-- Evaluates a content in a cell, whether or not it is the content of that cell. -/
def evaluate (c : Cell) (content : Text) : Outcome :=
  match body? content with
  | none => .text content
  | some body => outcome (Walk.within c (s.formula (s.cellValue (maxDepth - 1)) (some c) body))

/-- Evaluates the raw text of a cell as it is. -/
def evaluateCell (c : Cell) : Outcome := s.evaluate c (s.grid.raw c)

/-- Evaluates a content outside all cells. -/
def evaluateDetached (content : Text) : Outcome :=
  match body? content with
  | none => .text content
  | some body => outcome (s.formula (s.cellValue maxDepth) none body)

end Setting

end Spreadsheet.Formula
