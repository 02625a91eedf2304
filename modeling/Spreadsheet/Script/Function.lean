import Spreadsheet.Script.Operator

/-!
# Built-in functions

The functions of the program with their names and descriptions, and what they do. The functions of
many numbers take one array of them, nested in any way; formulas bring their arguments into that form.
A truth value counts as 1 or 0 wherever a number is needed.
-/

namespace Spreadsheet.Script

/-- The functions of the program. -/
inductive Function
  | sum | mean | min | max | count
  | abs | sqrt | pow | round | floor | ceil | exp | log | log10
  | sin | cos | tan | asin | acos | atan | atan2 | mod
  | pi | e | random
  deriving DecidableEq, Repr

namespace Function

/-- All functions, in the order in which they are listed. -/
def all : List Function :=
  [sum, mean, min, max, count, abs, sqrt, pow, round, floor, ceil, exp, log, log10,
    sin, cos, tan, asin, acos, atan, atan2, mod, pi, e, random]

def name : Function → Text
  | sum => "sum".toList
  | mean => "mean".toList
  | min => "min".toList
  | max => "max".toList
  | count => "count".toList
  | abs => "abs".toList
  | sqrt => "sqrt".toList
  | pow => "pow".toList
  | round => "round".toList
  | floor => "floor".toList
  | ceil => "ceil".toList
  | exp => "exp".toList
  | log => "log".toList
  | log10 => "log10".toList
  | sin => "sin".toList
  | cos => "cos".toList
  | tan => "tan".toList
  | asin => "asin".toList
  | acos => "acos".toList
  | atan => "atan".toList
  | atan2 => "atan2".toList
  | mod => "mod".toList
  | pi => "pi".toList
  | e => "e".toList
  | random => "random".toList

def description : Function → String
  | sum => "Sum of all arguments"
  | mean => "Arithmetic mean of all arguments"
  | min => "Smallest argument"
  | max => "Largest argument"
  | count => "Number of values, arrays flattened"
  | abs => "Absolute value"
  | sqrt => "Square root"
  | pow => "x raised to the power y"
  | round => "Round to the nearest integer, or to n decimals"
  | floor => "Round down"
  | ceil => "Round up"
  | exp => "e raised to the power x"
  | log => "Natural logarithm, or logarithm in a given base"
  | log10 => "Base-10 logarithm"
  | sin => "Sine (radians)"
  | cos => "Cosine (radians)"
  | tan => "Tangent (radians)"
  | asin => "Arcsine"
  | acos => "Arccosine"
  | atan => "Arctangent"
  | atan2 => "Arctangent of y/x using both signs"
  | mod => "Remainder with the sign of the divisor"
  | pi => "The constant pi"
  | e => "Euler's number"
  | random => "Uniform random number in [0, 1)"

/-- Functions of any number of values. -/
def isVariadic : Function → Bool
  | sum | mean | min | max | count => true
  | _ => false

def ofName? (n : Text) : Option Function := all.find? (·.name == n)

theorem ofName?_name (f : Function) : ofName? f.name = some f := by cases f <;> rfl

end Function

/-- A name of a function of any number of values. -/
def isVariadicName (n : Text) : Bool := (Function.ofName? n).any Function.isVariadic

theorem exists_of_isVariadicName {n : Text} (h : isVariadicName n = true) :
    ∃ f : Function, f.isVariadic = true ∧ f.name = n := by
  obtain ⟨f, hf, hvariadic⟩ : ∃ f, Function.ofName? n = some f ∧ f.isVariadic = true := by
    simpa [isVariadicName, Option.any_eq_true] using h
  exact ⟨f, hvariadic, by simpa using List.find?_some hf⟩

namespace Value

def toNumber? : Value → Except Error Float
  | float x => .ok x
  | int n => .ok (Float.ofInt n)
  | bool b => .ok (if b then 1 else 0)
  | v => .error (.notNumber v.kind)

mutual

/-- The values in an array, nested in any way; any other value is its own only part. -/
def parts : Value → List Value
  | array items => partsOfItems items
  | v => [v]

def partsOfItems : List Value → List Value
  | [] => []
  | v :: rest => parts v ++ partsOfItems rest

end

/-- The parts of a value as numbers. -/
def numbers? (v : Value) : Except Error (List Float) := v.parts.mapM toNumber?

end Value

namespace Function

/-- The sum of numbers, added from left to right to a negative zero. -/
def total (xs : List Float) : Float := xs.foldl (· + ·) (-0.0)

/-- The smaller of two floats; one that is no number is passed over. -/
def lesser (x y : Float) : Float :=
  if x.isNaN then y else if y.isNaN then x else if y < x then y else x

/-- Combines numbers from left to right; there must be one. -/
def reduce (f : Function) (op : Float → Float → Float) : List Float → Except Error Value
  | [] => .error (.emptySet f.name)
  | x :: xs => .ok (.float (xs.foldl op x))

/-- Rounds to a number of decimals, which is cut to a whole number from 0 to 15. -/
def roundTo (x decimals : Float) : Float :=
  let places : Nat := if decimals ≥ 15 then 15 else if decimals ≥ 1 then decimals.toUInt64.toNat else 0
  let factor := Float.ofNat (Nat.pow 10 places)
  (x * factor).round / factor

/-- The remainder of a division that rounds down. -/
def floorMod (x y : Float) : Float := x - y * (x / y).floor

def unary? : Function → Option (Float → Float)
  | abs => some Float.abs
  | sqrt => some Float.sqrt
  | round => some Float.round
  | floor => some Float.floor
  | ceil => some Float.ceil
  | exp => some Float.exp
  | log => some Float.log
  | log10 => some Float.log10
  | sin => some Float.sin
  | cos => some Float.cos
  | tan => some Float.tan
  | asin => some Float.asin
  | acos => some Float.acos
  | atan => some Float.atan
  | _ => none

def binary? : Function → Option (Float → Float → Float)
  | pow => some Float.pow
  | round => some roundTo
  | log => some fun x base => x.log / base.log
  | atan2 => some Float.atan2
  | mod => some floorMod
  | _ => none

/-- The functions of no number, given the next random number. -/
def constant? (random : Float) : Function → Option Float
  | pi => some 3.141592653589793
  | e => some 2.718281828459045
  | .random => some random
  | _ => none

/-- A function of the parts of one value. -/
def gather? : Function → Option (Value → Except Error Value)
  | sum => some fun v => do return .float (total (← v.numbers?))
  | mean => some fun v => do
    let xs ← v.numbers?
    if xs.isEmpty then .error (.emptySet mean.name) else .ok (.float (total xs / Float.ofNat xs.length))
  | min => some fun v => do reduce min lesser (← v.numbers?)
  | max => some fun v => do reduce max larger (← v.numbers?)
  | count => some fun v => .ok (.float (Float.ofNat v.parts.length))
  | _ => none

/-- The larger or smaller of two numbers as the script language has it: whole if both are. -/
def extreme? (most : Bool) (a b : Value) : Option Value :=
  match a, b with
  | .int m, .int n => some (.int (if most = decide (n ≤ m) then m else n))
  | _, _ =>
    match a.float?, b.float? with
    | some x, some y => some (.float (if (if most then x ≥ y else x ≤ y) then x else y))
    | _, _ => none

/-- Calls a function of the program, given the next random number. -/
def apply (random : Float) (f : Function) (args : List Value) : Except Error Value :=
  match args with
  | [] => match f.constant? random with
    | some x => .ok (.float x)
    | none => .error (.badArguments f.name)
  | [v] => match f.gather?, f.unary? with
    | some g, _ => g v
    | none, some g => do return .float (g (← v.toNumber?))
    | none, none => .error (.badArguments f.name)
  | [a, b] =>
    match f.binary? with
    | some g => do
      let x ← a.toNumber?
      let y ← b.toNumber?
      return .float (g x y)
    | none =>
      match if f = max then extreme? true a b else if f = min then extreme? false a b else none with
      | some v => .ok v
      | none => .error (.badArguments f.name)
  | _ => .error (.badArguments f.name)

end Function

namespace Value

/-- The number of characters of a text or of items of an array. -/
def length? : Value → Option Nat
  | text t => some t.length
  | array items => some items.length
  | _ => none

/-- The name of a kind of value in scripts. -/
def scriptKind : Value → Text
  | range _ _ closed => (if closed then "range=" else "range").toList
  | v => v.kind

end Value

/-- Calls a function of the script language. -/
def callCommon (f : Text) (args : List Value) : Except Error Value :=
  match args with
  | [] => if f = "print".toList ∨ f = "debug".toList then .ok .unit else .error (.unknownFunction f)
  | [v] =>
    if f = "print".toList ∨ f = "debug".toList then .ok .unit
    else if f = "type_of".toList then .ok (.text v.scriptKind)
    else if f = "is_shared".toList then .ok (.bool false)
    else if f = "len".toList then
      match v, v.length? with
      | .map fields, _ => .ok (.int fields.length)
      | _, some n => .ok (.int n)
      | _, none => .error (.unknownFunction f)
    else .error (.unknownFunction f)
  | _ => .error (.unknownFunction f)

/-- Calls a function by its name, given the next random number. -/
def call (random : Float) (f : Text) (args : List Value) : Except Error Value :=
  match Function.ofName? f with
  | some g => g.apply random args
  | none => callCommon f args

end Spreadsheet.Script
