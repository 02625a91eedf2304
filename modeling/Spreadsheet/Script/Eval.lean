import Spreadsheet.Script.Parse
import Spreadsheet.Script.Simplify
import Spreadsheet.Script.Function

/-!
# Evaluating scripts

A script runs on the values of its names, a number of operations that it may still take, and the random
numbers to come. Each expression and each statement takes one operation, so that a loop comes to an end in
any case: evaluation recurses on the script, and a loop on the operations left. `run` evaluates a whole
script.
-/

namespace Spreadsheet.Script

/-- The values of names, the latest first. -/
abbrev Scope := List (Text × Value)

/-- The scope with a new value for a name that it has. -/
def Scope.set (n : Text) (v : Value) : Scope → Scope
  | [] => []
  | (k, w) :: rest => if k = n then (k, v) :: rest else (k, w) :: Scope.set n v rest

/-- A step whose operands have been found. -/
inductive Move
  | index (i : Value)
  | member (n : Text)
  | method (f : Text) (args : List Value)

namespace Value

def at? {α : Type} (items : List α) (i : Int) : Except Error α :=
  match nth? items i with
  | some x => .ok x
  | none => .error .outOfRange

/-- An item of an array, a character of a text, a field of a map or a bit of a whole number. -/
def item (v i : Value) : Except Error Value :=
  match v, i with
  | array items, int n => at? items n
  | text t, int n => (at? t n).map .char
  | map fields, text key => .ok ((field? key fields).getD unit)
  | int m, int n => match bit? m n with
    | some b => .ok (.bool b)
    | none => .error .outOfRange
  | _, _ => .error .mismatch

/-- A member of a value: its length, or a field of a map. -/
def member (v : Value) (n : Text) : Except Error Value :=
  match v with
  | map fields => .ok ((field? n fields).getD unit)
  | v =>
    match v.length? with
    | some k => if n = "len".toList then .ok (.int k) else .error .mismatch
    | none => .error .mismatch

/-- The items with a new one at an index. -/
def setAt {α : Type} (items : List α) (i : Int) (x : α) : List α :=
  items.set (if i < 0 then i + items.length else i).toNat x

/-- The value with a new item, character, field or bit where a move leads. -/
def put (v : Value) (move : Move) (new : Value) : Except Error Value :=
  match v, move, new with
  | array items, .index (int n), _ => do
    let _ ← at? items n
    return .array (setAt items n new)
  | text t, .index (int n), char c => do
    let _ ← at? t n
    return .text (setAt t n c)
  | map fields, .index (text key), _ => .ok (.map (setField key new fields))
  | map fields, .member key, _ => .ok (.map (setField key new fields))
  | int m, .index (int n), bool b => do
    let old ← v.item (int n)
    let weight := Int.shiftLeft 1 (if n < 0 then n + 64 else n).toNat
    let change := match old, b with
      | bool false, true => weight
      | bool true, false => -weight
      | _, _ => 0
    return .int (Int64.ofInt (m + change)).toInt
  | _, _, _ => .error .mismatch

end Value

/-- What a script runs on. -/
structure Machine where
  scope : Scope
  /-- How many operations may still be taken. -/
  left : Nat
  /-- The random numbers to come. -/
  draws : Nat → Float

/-- Runs on a machine and may fail. -/
abbrev Run := StateT Machine (Except Error)

/-- The operations that a script may take. -/
def maxOperations : Nat := 100000

namespace Run

def tick : Run Unit := do
  let m ← get
  if m.left = 0 then throw .endless else set { m with left := m.left - 1 }

def lookup (n : Text) : Run Value := do
  match Value.field? n (← get).scope with
  | some v => return v
  | none => throw (.unknownName n)

def bind (n : Text) (v : Value) : Run Unit := modify fun m => { m with scope := (n, v) :: m.scope }

def assign (n : Text) (f : Value → Run Value) : Run Unit := do
  let v ← f (← lookup n)
  modify fun m => { m with scope := m.scope.set n v }

/-- Runs a block, whose own names are gone afterwards. -/
def within {α : Type} (body : Run α) : Run α := do
  let names := (← get).scope.length
  let x ← body
  modify fun m => { m with scope := m.scope.drop (m.scope.length - names) }
  return x

def truth : Value → Run Bool
  | .bool b => return b
  | _ => throw .mismatch

/-- Calls a function by its name. Each call of `random` draws a number. -/
def call (f : Text) (args : List Value) : Run Value := do
  let m ← get
  if Function.ofName? f = some .random then set { m with draws := fun n => m.draws (n + 1) }
  Script.call (m.draws 0) f args

def step (v : Value) : Move → Run Value
  | .index i => v.item i
  | .member n => v.member n
  | .method f args => call f (v :: args)

def follow (v : Value) (moves : List Move) : Run Value := moves.foldlM step v

/-- The value changed where some moves lead. -/
def change (f : Value → Except Error Value) : List Move → Value → Run Value
  | [], v => f v
  | move :: moves, v => do
    let part ← step v move
    v.put move (← change f moves part)

/-- Runs a body as long as a condition holds. -/
def while_ (c : Run Value) (body : Run Value) : (rounds : Nat) → Run Unit
  | 0 => throw .endless
  | rounds + 1 => do
    tick
    if ← truth (← c) then
      let _ ← body
      while_ c body rounds

end Run

open Run

mutual

def Expr.eval : Expr → Run Value
  | .literal v => do
    tick
    return v
  | .array items => do
    tick
    return .array (← evalItems items)
  | .map fields => do
    tick
    return .map (← evalFields fields)
  | .name n => do
    tick
    lookup n
  | .unary op e => do
    tick
    Value.operateUnary op (← e.eval)
  | .binary .both l r => do
    tick
    if ← truth (← l.eval) then return .bool (← truth (← r.eval)) else return .bool false
  | .binary .either l r => do
    tick
    if ← truth (← l.eval) then return .bool true else return .bool (← truth (← r.eval))
  | .binary op l r => do
    tick
    let a ← l.eval
    let b ← r.eval
    Value.operate op a b
  | .call f (.name n :: args) => do
    tick
    tick
    let vs ← evalItems args
    let v ← lookup n
    Run.call f (v :: vs)
  | .call f args => do
    tick
    tick
    Run.call f (← evalItems args)
  | .access root steps => do
    tick
    let moves ← evalSteps steps
    let v ← root.eval
    follow v moves
  | .block body => do
    tick
    within (evalBody body)

def evalItems : List Expr → Run (List Value)
  | [] => return []
  | e :: rest => do
    let v ← e.eval
    return v :: (← evalItems rest)

def evalFields : List (Text × Expr) → Run (List (Text × Value))
  | [] => return []
  | (k, e) :: rest => do
    let v ← e.eval
    return Value.setField k v (← evalFields rest)

/-- The step with its operands found. -/
def Step.eval : Step → Run Move
  | .index i => return .index (← i.eval)
  | .member n => return .member n
  | .method f args => return .method f (← evalItems args)

def evalSteps : List Step → Run (List Move)
  | [] => return []
  | s :: rest => do
    let move ← s.eval
    return move :: (← evalSteps rest)

def Statement.eval : Statement → Run Value
  | .value e => do
    tick
    e.eval
  | .bind n e => do
    tick
    bind n (← e.eval)
    return .unit
  | .assign n path op e => do
    tick
    tick
    let new ← e.eval
    let moves ← evalSteps path
    assign n (change (fun old => match op with
      | some op => Value.operate op old new
      | none => .ok new) moves)
    return .unit
  | .block body => do
    tick
    within (evalBody body)
  | .choose c yes no => do
    tick
    if ← truth (← c.eval) then within (evalBody yes) else within (evalBody no)
  | .loop c body => do
    tick
    while_ c.eval (within (evalBody body)) (maxOperations + 1)
    return .unit
  | .nothing => do
    tick
    return .unit

def evalBody : List Statement → Run Value
  | [] => return .unit
  | [s] => s.eval
  | s :: rest => do
    let _ ← s.eval
    evalBody rest

end

/-- Runs a script with the random numbers that it will draw. -/
def run (script : Text) (draws : Nat → Float := fun _ => 0.5) : Except Error Value :=
  match parse? script with
  | some program => (evalBody (simplify program)).run' ⟨[], maxOperations, draws⟩
  | none => .error .malformed

end Spreadsheet.Script
