import Spreadsheet.Text.Basic
import Spreadsheet.Number.Shortest

/-!
# Tokens of the script language

Numbers keep the exact decimal that is written, so that two spellings can be compared by value. Tokens
that no script here may hold keep their spelling. The tables list the spellings of symbols and the words
that are no names.
-/

namespace Spreadsheet.Script

/-- Operators in front of one operand. -/
inductive Unary
  | negate | keep | not
  deriving DecidableEq, Repr

/-- Operators between two operands. -/
inductive Binary
  | add | subtract | multiply | divide | modulo | power
  | equal | unequal | less | atMost | greater | atLeast
  /-- `and` that looks at its second operand only if it has to. -/
  | both
  /-- `or` that looks at its second operand only if it has to. -/
  | either
  | meet | meld | differ
  | upTo | through
  deriving DecidableEq, Repr

namespace Binary

/-- How tightly an operator binds. -/
def precedence : Binary → Nat
  | either | meld | differ => 30
  | both | meet => 60
  | equal | unequal => 90
  | less | atMost | greater | atLeast => 130
  | upTo | through => 140
  | add | subtract => 150
  | multiply | divide | modulo => 180
  | power => 190

/-- Only powers group to the right. -/
def groupsRight (op : Binary) : Bool := op == power

/-- Operators that compare. -/
def compares : Binary → Bool
  | equal | unequal | less | atMost | greater | atLeast => true
  | _ => false

end Binary

/-- Operators and punctuation. -/
inductive Symbol
  | openRound | closeRound
  /-- Round brackets with nothing at all between them. -/
  | emptyRound
  | openSquare | closeSquare | openMap | openCurly | closeCurly
  | operator (op : Binary)
  | assign
  /-- An assignment that joins the new value to the old one. -/
  | update (op : Binary)
  | not | comma | colon | semicolon | dot
  deriving DecidableEq, Repr

/-- Words with a meaning of their own. -/
inductive Keyword
  | yes | no | bind | when | otherwise | forever | while_
  deriving DecidableEq, Repr

inductive Token
  /-- Decimal digits alone, with a minus sign if one stands right in front of them, of at most 64 bits. -/
  | int (n : Int)
  /-- Digits of another base, at most 64 bits of them. -/
  | word (n : Nat)
  /-- Digits with a point or an exponent, or too many of them, negative if a minus sign stands right in
  front of them. -/
  | decimal (negative : Bool) (d : Decimal)
  | text (t : Text)
  | char (c : Char)
  | name (t : Text)
  | keyword (k : Keyword)
  /-- A word that can be called and is no name. -/
  | command (t : Text)
  | symbol (s : Symbol)
  /-- A symbol or a word with a meaning, or none, that no script here may use. -/
  | other (spelling : Text)
  deriving DecidableEq, Repr

namespace Token

/-- Decimal digits alone: a whole number, unless it has more than 64 bits. -/
def whole (negative : Bool) (digits : Text) : Token :=
  let n := Text.value digits
  if n < Nat.pow 2 63 ∨ (negative ∧ n = Nat.pow 2 63) then .int (if negative then -n else n)
  else .decimal negative ⟨n, 0⟩

/-- The operators and punctuation by their spelling. -/
def symbols : List (Text × Symbol) := [
  (['('], .openRound), ([')'], .closeRound), (['(', ')'], .emptyRound),
  (['['], .openSquare), ([']'], .closeSquare), (['#', '\x7b'], .openMap),
  (['\x7b'], .openCurly), (['\x7d'], .closeCurly),
  (['+'], .operator .add), (['+', '='], .update .add),
  (['-'], .operator .subtract), (['-', '='], .update .subtract),
  (['*'], .operator .multiply), (['*', '='], .update .multiply),
  (['*', '*'], .operator .power), (['*', '*', '='], .update .power),
  (['/'], .operator .divide), (['/', '='], .update .divide),
  (['%'], .operator .modulo), (['%', '='], .update .modulo),
  (['='], .assign), (['=', '='], .operator .equal),
  (['!'], .not), (['!', '='], .operator .unequal),
  (['<'], .operator .less), (['<', '='], .operator .atMost),
  (['>'], .operator .greater), (['>', '='], .operator .atLeast),
  (['&'], .operator .meet), (['&', '&'], .operator .both), (['&', '='], .update .meet),
  (['|'], .operator .meld), (['|', '|'], .operator .either), (['|', '='], .update .meld),
  (['^'], .operator .differ), (['^', '='], .update .differ),
  ([','], .comma), ([':'], .colon), ([';'], .semicolon),
  (['.'], .dot), (['.', '.'], .operator .upTo), (['.', '.', '='], .operator .through)]

/-- The symbols that no script here may use: shifts, arrows, paths and what is kept for later. -/
def reservedSymbols : List Text :=
  ["++", "--", "->", "=>", "===", "!==", "!.", "!in", "<-", "<<", "<<=", "<|", ">>", ">>=", "|>", "::", "::<",
    ":=", ":;", "...", "(*", "*)", "#", "#!", "?", "??", "?.", "?[", "@", "$", "~"].map String.toList

/-- The words that have a meaning of their own. -/
def keywords : List (Text × Keyword) := [
  ("true".toList, .yes), ("false".toList, .no), ("let".toList, .bind), ("if".toList, .when),
  ("else".toList, .otherwise), ("loop".toList, .forever), ("while".toList, .while_)]

/-- The words that can only be called, like functions. -/
def commands : List Text :=
  ["print", "debug", "type_of", "is_shared", "is_def_var", "is_def_fn", "eval", "Fn", "call",
    "curry"].map String.toList

/-- The words that can be called like methods, too. -/
def methodCommands : List Text := ["type_of", "is_shared", "call", "curry"].map String.toList

/-- The words that may not be used as names and that no script here may use. -/
def reserved : List Text :=
  ["and", "as", "async", "await", "break", "case", "catch", "const", "continue", "default", "do",
    "export", "fn", "for", "go", "goto", "import", "in", "is", "match", "module", "new", "nil",
    "not", "null", "package", "private", "protected", "public", "return", "shared", "spawn", "static",
    "super", "switch", "sync", "this", "thread", "throw", "try", "until", "use", "var", "void", "with",
    "yield"].map String.toList

/-- The words and symbols among those that no script here may use behind which an operand begins. -/
def reservedOpeners : List Text :=
  ["in", "!in", "until", "return", "throw", "<<", "<<=", ">>", ">>=", "=>", "??"].map String.toList

/-- Characters of names. -/
def isNameChar (c : Char) : Bool := Text.isLetter c || Text.isDigit c || c == '_'

/-- Whether an operand begins behind this token, so that a minus sign there belongs to a number. -/
def opensOperand : Token → Bool
  | symbol s => match s with
    | .openRound | .openSquare | .openCurly | .operator _ | .assign | .update _ | .not
    | .comma | .colon | .semicolon => true
    | _ => false
  | keyword k => match k with
    | .when | .while_ => true
    | _ => false
  | other t => reservedOpeners.contains t
  | _ => false

end Token

end Spreadsheet.Script
