import Spreadsheet.Script.Expr
import Spreadsheet.Script.Operator

/-!
# Simplifying scripts

Before a script is evaluated, what cannot matter is left out of it: statements that do nothing and whose
value is not used, operators between literals, choices that are decided, and parts of a literal that are
not asked for. This shows: a name that means nothing goes unnoticed where nobody looks at it.

`Expr.isPure` and `Statement.isPure` say what does nothing, `tidy` what is left of a list of statements,
and `simplify` applies both from the inside out.
-/

namespace Spreadsheet.Script

namespace Value

/-- Whether the operator goes with the two kinds of values by itself. Lists and maps have functions for
it, and so has the joining of a text to anything else. -/
def joinsPlainly (op : Binary) (a b : Value) : Bool :=
  match a, b with
  | array _, array _ | map _, map _ => false
  | _, _ => op.compares || (a.float?.isSome && b.float?.isSome) || (a.text?.isSome && b.text?.isSome) ||
    (match a, b with | bool _, bool _ => true | _, _ => false)

/-- The value of an operator between two literals, if it can be told ahead. -/
def ahead? (op : Binary) (a b : Value) : Option Value :=
  if joinsPlainly op a b then (operate op a b).toOption else none

/-- The bit of a whole number at an index; a negative index counts from the highest bit. -/
def bit? (n i : Int) : Option Bool :=
  let k := if i < 0 then i + 64 else i
  if k < 0 ∨ 64 ≤ k then none else some (n.shiftRight k.toNat % 2 = 1)

/-- The item at an index; a negative index counts from the end. -/
def nth? {α : Type} (items : List α) (i : Int) : Option α :=
  let k := if i < 0 then i + items.length else i
  if k < 0 then none else items[k.toNat]?

end Value

mutual

/-- The value of an expression that is made of literals. -/
def Expr.constant? : Expr → Option Value
  | .literal v => some v
  | .array items => (constants? items).map .array
  | .map fields => (constantFields? fields).map .map
  | _ => none

def constants? : List Expr → Option (List Value)
  | [] => some []
  | e :: rest => do return (← e.constant?) :: (← constants? rest)

def constantFields? : List (Text × Expr) → Option (List (Text × Value))
  | [] => some []
  | (k, e) :: rest => do
    let v ← e.constant?
    return Value.setField k v (← constantFields? rest)

end

mutual

/-- Whether an expression does nothing but have a value. A name counts, whether it means anything or
not. -/
def Expr.isPure : Expr → Bool
  | .literal _ | .name _ => true
  | .array items => allPure items
  | .map fields => allFieldsPure fields
  | .binary .both l r | .binary .either l r => l.isPure && r.isPure
  | .block body => allDoNothing body
  | _ => false

def allPure : List Expr → Bool
  | [] => true
  | e :: rest => e.isPure && allPure rest

def allFieldsPure : List (Text × Expr) → Bool
  | [] => true
  | (_, e) :: rest => e.isPure && allFieldsPure rest

/-- Whether a statement does nothing but have a value. -/
def Statement.isPure : Statement → Bool
  | .value e => e.isPure
  | .bind .. | .assign .. => false
  | .block body => allDoNothing body
  | .choose c yes no => c.isPure && allDoNothing yes && allDoNothing no
  | .loop c _ => match c with
    | .literal (.bool false) => true
    | _ => false
  | .nothing => true

/-- Whether statements do nothing but have a value. -/
def allDoNothing : List Statement → Bool
  | [] => true
  | s :: rest => s.isPure && allDoNothing rest

end

namespace Statement

/-- Whether a statement does nothing that is seen outside its block. -/
def isInnerPure : Statement → Bool
  | bind _ e => e.isPure
  | s => s.isPure

/-- Whether a statement stands for a value other than the empty one. -/
def hasValue : Statement → Bool
  | value _ | block _ | choose .. => true
  | _ => false

/-- Whether later statements of the block may need this one. -/
def mayBeNeeded (isPure : Statement → Bool) (s : Statement) : Bool :=
  !isPure s || match s with
    | bind _ e => e.constant?.isSome
    | value e => e.constant?.isNone
    | _ => false

end Statement

/-- The statements without those that do nothing, apart from a last one that is kept for its value. What
stands behind the last statement that matters is judged by `isPure`, what stands before it strictly. -/
def dropPure (isPure : Statement → Bool) (keep : Bool) (body : List Statement) : List Statement :=
  let first := body.length - 1 - (body.reverse.takeWhile fun s => !s.mayBeNeeded isPure).length
  let last := if keep then body.drop (body.length - 1) else []
  let rest := if keep then body.take (body.length - 1) else body
  (rest.take first).filter (!·.isPure) ++ (rest.drop first).filter (!isPure ·) ++ last

/-- The statements in reverse order without those at the end that do nothing. A statement without a value
behind one with a value still makes the value empty. -/
def dropLast (isPure : Statement → Bool) : List Statement → List Statement
  | [] => []
  | [s] => if !s.hasValue && isPure s then [] else [s]
  | z :: a :: rest =>
    if !z.hasValue && isPure z then
      if a.hasValue then .nothing :: a :: rest else dropLast isPure (a :: rest)
    else z :: a :: rest

/-- What is left of simplified statements. The value of the last one is kept or not, and the block may
have names of its own or not. -/
def tidyOnce (keep inner : Bool) (body : List Statement) : List Statement :=
  let isPure := if inner then Statement.isInnerPure else Statement.isPure
  let left := dropPure isPure keep body
  if keep then (dropLast isPure left.reverse).reverse
  else (left.reverse.dropWhile isPure).reverse

/-- What is left after any number of rounds; no more are needed than there are statements. -/
def tidy (keep inner : Bool) (body : List Statement) : List Statement :=
  body.foldl (fun left _ => tidyOnce keep inner left) (tidyOnce keep inner body)

/-- Statements as one statement. -/
def Statement.ofBlock : List Statement → Statement
  | [] => .nothing
  | [s] => if s.isBind then .block [s] else s
  | body => .block body

/-- An expression as a statement. -/
def Statement.ofExpr : Expr → Statement
  | .block body => .block body
  | e => .value e

/-- Statements in curly brackets as an expression. -/
def Expr.ofBlock : List Statement → Expr
  | [] => .literal .unit
  | [.value e] => e
  | body => .block body

/-- An operator between simplified operands. -/
def Expr.ofBinary (op : Binary) (l r : Expr) : Expr :=
  match op, l, r with
  | .both, .literal (.bool p), r => if p then r else .literal (.bool false)
  | .both, l, .literal (.bool true) => l
  | .either, .literal (.bool p), r => if p then .literal (.bool true) else r
  | .either, l, .literal (.bool false) => l
  | .both, l, r => .binary .both l r
  | .either, l, r => .binary .either l r
  | op, l, r =>
    match (do Value.ahead? op (← l.constant?) (← r.constant?)) with
    | some v => .literal v
    | none => .binary op l r

/-- The part of a literal that one step leads to, if the step is a literal, too, and the other parts do
nothing. -/
def Expr.part? : Expr → Step → Option Expr
  | .array items, .index (.literal (.int i)) => if allPure items then Value.nth? items i else none
  | .map fields, .index (.literal (.text k)) | .map fields, .member k =>
    if allFieldsPure fields then some ((fields.lookup k).getD (.literal .unit)) else none
  | .literal (.int n), .index (.literal (.int i)) => (Value.bit? n i).map fun b => .literal (.bool b)
  | .literal (.text t), .index (.literal (.int i)) => (Value.nth? t i).map fun c => .literal (.char c)
  | _, _ => none

/-- Simplified steps from a simplified expression. -/
def Expr.ofAccess (root : Expr) (steps : List Step) : Expr :=
  match steps with
  | [step] => (root.part? step).getD (.access root steps)
  | _ => .access root steps

mutual

/-- The expression without what cannot matter. -/
def Expr.simplify : Expr → Expr
  | .literal v => .literal v
  | .name n => .name n
  | .array items => .array (simplifyItems items)
  | .map fields => .map (simplifyFields fields)
  | .unary op e => match op, e.simplify with
    | .not, .literal (.bool b) => .literal (.bool !b)
    | op, e => .unary op e
  | .binary op l r => .ofBinary op l.simplify r.simplify
  | .call f args => .call f (simplifyItems args)
  | .access root steps => .ofAccess root.simplify (simplifySteps steps)
  | .block body => .ofBlock (tidy true true (simplifyBody true body))

def simplifyItems : List Expr → List Expr
  | [] => []
  | e :: rest => e.simplify :: simplifyItems rest

def simplifyFields : List (Text × Expr) → List (Text × Expr)
  | [] => []
  | (k, e) :: rest => (k, e.simplify) :: simplifyFields rest

def Step.simplify : Step → Step
  | .index i => .index i.simplify
  | .member n => .member n
  | .method f args => .method f (simplifyItems args)

def simplifySteps : List Step → List Step
  | [] => []
  | s :: rest => s.simplify :: simplifySteps rest

/-- The statement without what cannot matter, its value being kept or not. -/
def Statement.simplify (keep : Bool) : Statement → Statement
  | .value e => .ofExpr e.simplify
  | .bind n e => .bind n e.simplify
  | .assign n path op e => .assign n (simplifySteps path) op e.simplify
  | .block body => .ofBlock (tidy keep true (simplifyBody keep body))
  | .choose c yes no =>
    let c := c.simplify
    let yes := tidy keep true (simplifyBody keep yes)
    let no := tidy keep true (simplifyBody keep no)
    match c, yes, no with
    | c, [], [] => if keep then .ofBlock (tidy true true [.ofExpr c, .nothing]) else .ofExpr c
    | .literal (.bool true), yes, _ => .ofBlock yes
    | .literal (.bool false), _, no => .ofBlock no
    | c, yes, no => .choose c yes no
  | .loop c body => match c.simplify with
    | .literal (.bool false) => .nothing
    | c => .loop c (tidy false true (simplifyBody false body))
  | .nothing => .nothing

/-- The statements without what cannot matter in each. A block without names of its own is no block. -/
def simplifyBody (keep : Bool) : List Statement → List Statement
  | [] => []
  | .block body :: rest =>
    (if body.any Statement.isBind then [.ofBlock (tidy keep true (simplifyBody keep body))]
      else simplifyBody keep body) ++ simplifyBody keep rest
  | s :: rest => s.simplify keep :: simplifyBody keep rest

end

/-- A script without what cannot matter. -/
def simplify (program : List Statement) : List Statement := tidy true false (simplifyBody true program)

end Spreadsheet.Script
