import Spreadsheet.Script.Expr
import Spreadsheet.Script.Lex

/-!
# Parsing scripts

A `Grammar` is the set of parsers at one nesting level. `Grammar.around` builds the parsers of a level
from those one level further in, and `grammar` stacks as many levels as a script may have, so that
nesting too deeply is an error like any other. An expression takes a level; brackets and arguments take
another, items of arrays and maps two more, and each operator of a chain one.
-/

namespace Spreadsheet.Script

/-- Reads something from the front of a list of tokens. -/
abbrev Parser (α : Type) := StateT (List Token) Option α

namespace Parser

/-- The next token, which stays where it is. -/
def peek : Parser (Option Token) := do return (← get).head?

/-- Takes the next token. -/
def skip : Parser Unit := modify List.tail

/-- Takes a symbol that must come next. -/
def expect (s : Symbol) : Parser Unit := do
  if (← peek) = some (.symbol s) then skip else failure

/-- Takes a symbol if it comes next. -/
def takes (s : Symbol) : Parser Bool := do
  if (← peek) = some (.symbol s) then
    skip
    return true
  else return false

/-- Things separated by commas up to a closing symbol; a last comma may stand alone. -/
def list {α : Type} (item : Parser α) (close : Symbol) : (room : Nat) → Parser (List α)
  | 0 => failure
  | room + 1 => do
    if ← takes close then return []
    else
      let x ← item
      if ← takes .comma then return x :: (← list item close room)
      else
        expect close
        return [x]

/-- As many things separated by commas as there are tokens. -/
def commaList {α : Type} (item : Parser α) (close : Symbol) : Parser (List α) := do
  list item close ((← get).length + 1)

/-- The arguments of a call, if some stand here. -/
def arguments? {α : Type} (item : Parser α) : Parser (Option (List α)) := do
  if ← takes .emptyRound then return some []
  else if ← takes .openRound then return some (← commaList item .closeRound)
  else return none

end Parser

open Spreadsheet.Script.Parser

/-- The value of a number in another base. One with its highest bit set is negative. -/
def wordNumber (n : Nat) : Value := .int (if n < Nat.pow 2 63 then n else n - Int.pow 2 64)

/-- The value of a text, which must not be too long. -/
def textLiteral (t : Text) : Parser Value :=
  if textSize t ≤ maxTextSize then pure (.text t) else failure

/-- An operator with its operands; a literal that is plainly no truth value may not be joined by a
short-circuit operator. -/
def combine (op : Binary) (l r : Expr) : Parser Expr :=
  if (op = .both ∨ op = .either) ∧ (l.isOther ∨ r.isOther) then failure
  else pure (.binary op l r)

/-- A sign in front of an operand; a number takes it in. The least whole number becomes a float. -/
def signed (op : Unary) (e : Expr) : Expr :=
  match op, e with
  | .negate, .literal (.int n) =>
    .literal (if -n ≤ maxInt then .int (-n) else .float (-Float.ofInt n))
  | .negate, .literal (.float x) => .literal (.float (-x))
  | .keep, .literal (.int n) => .literal (.int n)
  | .keep, .literal (.float x) => .literal (.float x)
  | _, _ => .unary op e

/-- The parsers of one nesting level. -/
structure Grammar where
  /-- Succeeds if there is such a level at all. -/
  enter : Parser Unit
  expr : Parser Expr
  /-- An expression one level further in. -/
  item : Parser Expr
  /-- An operand with its signs and steps. -/
  operand : Parser Expr
  /-- A member or method behind its point, with the steps that follow. -/
  property : Parser (List Step)
  /-- Indices behind their first bracket. -/
  indices : Parser (List Step)
  /-- Operators that bind tighter than a given precedence, behind their first operand. -/
  chain : Nat → Expr → Parser Expr
  choice : Parser Statement
  cycle : Parser Statement
  /-- Statements in curly brackets. -/
  block : Parser (List Statement)
  statement : Parser Statement

namespace Grammar

/-- Beyond the last level nothing can be read. -/
def closed : Grammar where
  enter := failure
  expr := failure
  item := failure
  operand := failure
  property := failure
  indices := failure
  chain _ _ := failure
  choice := failure
  cycle := failure
  block := failure
  statement := failure

variable (inner : Grammar)

/-- A field of a map: a name or a text, and a value behind a colon. -/
def field : Parser (Text × Expr) := do
  let key ← match ← peek with
    | some (.name n) => pure n
    | some (.text t) => do
      let _ ← textLiteral t
      pure t
    | _ => failure
  skip
  expect .colon
  return (key, ← inner.item)

/-- The condition of a choice or a loop: no block, and no literal of another kind. -/
def condition : Parser Expr := do
  if (← peek) = some (.symbol .openCurly) then failure
  let c ← inner.expr
  if c.isOther then failure
  return c

def choiceOf : Parser Statement := do
  skip
  let c ← condition inner
  let yes ← inner.block
  if (← peek) = some (.keyword .otherwise) then
    skip
    if (← peek) = some (.keyword .when) then return .choose c yes [← inner.choice]
    else return .choose c yes (← inner.block)
  else return .choose c yes []

/-- A loop, with or without a condition. -/
def cycleOf : Parser Statement := do
  let endless := (← peek) = some (.keyword .forever)
  skip
  let c ← if endless then pure (.literal (.bool true)) else condition inner
  return .loop c (← inner.block)

def indicesOf : Parser (List Step) := do
  let i ← inner.expr
  expect .closeSquare
  if ← takes .openSquare then return .index i :: (← inner.indices)
  else return [.index i]

/-- The steps behind an expression, whose first index is checked. -/
def stepsOf : (room : Nat) → Option Expr → Parser (List Step)
  | 0, _ => failure
  | room + 1, root => do
    if ← takes .openSquare then
      let found ← inner.indices
      match root, found with
      | some e, .index i :: _ => if e.checksIndex ∧ e.refuses i then failure
      | _, _ => pure ()
      return found ++ (← stepsOf room none)
    else if ← takes .dot then
      let found ← inner.property
      return found ++ (← stepsOf room none)
    else return []

/-- As many steps as there are tokens. -/
def steps (root : Option Expr) : Parser (List Step) := do
  stepsOf inner ((← get).length + 1) root

def propertyOf : Parser (List Step) := do
  let token ← peek
  skip
  let first : Step ← match token with
    | some (.name n) => do
      match ← arguments? inner.expr with
      | some args => pure (.method n args)
      | none => pure (.member n)
    | some (.command w) => do
      if !Token.methodCommands.contains w then failure
      match ← arguments? inner.expr with
      | some args => pure (.method w args)
      | none => failure
    | _ => failure
  return first :: (← steps inner none)

/-- An operand without signs and steps, whose first token has just been taken. -/
def atom : Token → Parser Expr
  | .int n => pure (.literal (.int n))
  | .word n => pure (.literal (wordNumber n))
  | .decimal negative d => pure (.literal (.float (if negative then -d.toFloat else d.toFloat)))
  | .text t => return .literal (← textLiteral t)
  | .char c => pure (.literal (.char c))
  | .keyword .yes => pure (.literal (.bool true))
  | .keyword .no => pure (.literal (.bool false))
  | .name n => do
    match ← arguments? inner.expr with
    | some args => return .call n args
    | none => return .name n
  | .command w => do
    match ← arguments? inner.expr with
    | some args => return .call w args
    | none => failure
  | .symbol .emptyRound => pure (.literal .unit)
  | .symbol .openRound => do
    let e ← inner.expr
    expect .closeRound
    return e
  | .symbol .openSquare => do
    inner.enter
    return .array (← commaList inner.item .closeSquare)
  | .symbol .openMap => do
    inner.enter
    let fields ← commaList (field inner) .closeCurly
    if (fields.map Prod.fst).Nodup then return .map fields else failure
  | _ => failure

/-- An operand with its steps. -/
def primary : Parser Expr := do
  let root ← match ← peek with
    | some (.symbol .openCurly) => do pure (.block (← inner.block))
    | some (.keyword .when) => do pure (.block [← inner.choice])
    | some (.keyword .forever) | some (.keyword .while_) => do pure (.block [← inner.cycle])
    | some t => do
      skip
      atom inner t
    | none => failure
  let found ← steps inner (some root)
  return if found.isEmpty then root else .access root found

def operandOf : Parser Expr := do
  match ← peek with
  | some (.symbol (.operator .subtract)) =>
    skip
    return signed .negate (← inner.operand)
  | some (.symbol (.operator .add)) =>
    skip
    return signed .keep (← inner.operand)
  | some (.symbol .not) =>
    skip
    return .unary .not (← inner.operand)
  | _ => primary inner

/-- The operator that comes next, if it binds tighter than `least` or as tightly to the right. -/
def tighter? (least : Nat) : Parser (Option Binary) := do
  match ← peek with
  | some (.symbol (.operator op)) =>
    if least < op.precedence || (least == op.precedence && op.groupsRight) then return some op
    else return none
  | _ => return none

/-- Operators that bind tighter than `least`, behind their first operand. -/
def chainOf : (room least : Nat) → Expr → Parser Expr
  | 0, _, _ => failure
  | room + 1, least, l => do
    match ← tighter? least with
    | some op =>
      skip
      let r ← operandOf inner
      let r ← match ← tighter? op.precedence with
        | some _ => chainOf room op.precedence r
        | none => pure r
      inner.chain least (← combine op l r)
    | none => pure l

/-- An expression: operands joined by operators. -/
def exprOf : Parser Expr := do inner.chain 1 (← inner.operand)

/-- A binding behind its first word. -/
def bindingOf : Parser Statement := do
  match ← peek with
  | some (.name n) =>
    skip
    if ← takes .assign then return .bind n (← inner.item)
    else return .bind n (.literal .unit)
  | _ => failure

/-- An expression or an assignment to a name or a part of it. -/
def assignmentOf : Parser Statement := do
  let e ← inner.expr
  match ← peek with
  | some (.symbol .assign) => assignment none e
  | some (.symbol (.update op)) => assignment (some op) e
  | _ => return .value e
where
  /-- An assignment whose target has been read. -/
  assignment (op : Option Binary) (e : Expr) : Parser Statement := do
    skip
    match e.target? with
    | some (n, path) => return .assign n path op (← inner.expr)
    | none => failure

def statementOf : Parser Statement := do
  match ← peek with
  | some (.symbol .openCurly) => return .block (← inner.block)
  | some (.keyword .when) => inner.choice
  | some (.keyword .forever) | some (.keyword .while_) => inner.cycle
  | some (.keyword .bind) =>
    skip
    bindingOf inner
  | _ => assignmentOf inner

end Grammar

/-- Statements with semicolons between them, up to a closing curly bracket or the end. -/
def statements (statement : Parser Statement) : (room : Nat) → Parser (List Statement)
  | 0 => failure
  | room + 1 => do
    match ← peek with
    | none | some (.symbol .closeCurly) => return []
    | some (.symbol .semicolon) =>
      skip
      statements statement room
    | _ =>
      let s ← statement
      match ← peek with
      | none | some (.symbol .closeCurly) | some (.symbol .semicolon) =>
        return s :: (← statements statement room)
      | _ => if s.endsItself then return s :: (← statements statement room) else failure

namespace Grammar

def blockOf (inner : Grammar) : Parser (List Statement) := do
  expect .openCurly
  let body ← statements inner.statement ((← get).length + 1)
  expect .closeCurly
  return body

/-- The parsers of a level around the next one. -/
def around (inner : Grammar) : Grammar where
  enter := pure ()
  expr := exprOf inner
  item := inner.expr
  operand := operandOf inner
  property := propertyOf inner
  indices := indicesOf inner
  chain least l := do chainOf inner ((← get).length + 1) least l
  choice := choiceOf inner
  cycle := cycleOf inner
  block := blockOf inner
  statement := statementOf inner

end Grammar

/-- The parsers with a number of levels further in. -/
def grammar : Nat → Grammar
  | 0 => Grammar.closed.around
  | levels + 1 => (grammar levels).around

/-- The levels that a script may have inside its statements. -/
def maxLevels : Nat := 64

/-- The statements of a script, if it is well formed. -/
def parse? (script : Text) : Option (List Statement) := do
  let tokens ← lex script
  let (program, rest) ← (statements (grammar maxLevels).statement (tokens.length + 1)).run tokens
  if rest.isEmpty then some program else none

end Spreadsheet.Script
