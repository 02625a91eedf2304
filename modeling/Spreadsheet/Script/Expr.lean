import Spreadsheet.Script.Token
import Spreadsheet.Script.Value

/-!
# Expressions and statements of the script language

A script is a list of statements. Statements in curly brackets are an expression, too, with the value of
the last one; so are choices and loops, which stand in a block of their own there.
-/

namespace Spreadsheet.Script

mutual

/-- What has a value. -/
inductive Expr
  | literal (v : Value)
  | array (items : List Expr)
  | map (fields : List (Text × Expr))
  | name (n : Text)
  | unary (op : Unary) (e : Expr)
  | binary (op : Binary) (l r : Expr)
  | call (f : Text) (args : List Expr)
  /-- What some steps lead to from a value. -/
  | access (root : Expr) (steps : List Step)
  | block (body : List Statement)

/-- What leads from one value to another. -/
inductive Step
  | index (i : Expr)
  | member (n : Text)
  | method (f : Text) (args : List Expr)

/-- What is done in its turn. -/
inductive Statement
  | value (e : Expr)
  /-- A new name for the rest of the block. -/
  | bind (n : Text) (e : Expr)
  /-- A new value of a name or of a part of it, which an operator may join to the old one. -/
  | assign (n : Text) (path : List Step) (op : Option Binary) (e : Expr)
  | block (body : List Statement)
  | choose (c : Expr) (yes no : List Statement)
  /-- Does the body over again as long as the condition holds. -/
  | loop (c : Expr) (body : List Statement)
  | nothing

end

namespace Expr

/-- A literal that is plainly no truth value. -/
def isOther : Expr → Bool
  | literal (.bool _) => false
  | literal _ | array _ | map _ => true
  | _ => false

/-- An index that plainly does not go with a literal: maps take texts, other literals whole numbers. -/
def refuses : Expr → Expr → Bool
  | _, binary .both _ _ | _, binary .either _ _ => true
  | map _, literal (.text _) => false
  | array _, literal (.int _) | literal _, literal (.int _) => false
  | _, literal _ => true
  | _, _ => false

/-- A literal whose index is checked while the script is read. -/
def checksIndex : Expr → Bool
  | map _ | array _ | literal (.int _) | literal (.text _) => true
  | _ => false

/-- The name and the path that an assignment to the expression changes. -/
def target? : Expr → Option (Text × List Step)
  | name n => some (n, [])
  | access (name n) steps =>
    if steps.all fun | .method .. => false | _ => true then some (n, steps) else none
  | _ => none

end Expr

namespace Statement

/-- A statement that adds a name to its block. -/
def isBind : Statement → Bool
  | bind .. => true
  | _ => false

/-- A statement that needs no semicolon behind it. -/
def endsItself : Statement → Bool
  | block _ | choose .. | loop .. => true
  | _ => false

end Statement

end Spreadsheet.Script
