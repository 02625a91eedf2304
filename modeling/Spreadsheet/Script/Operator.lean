import Spreadsheet.Script.Error
import Spreadsheet.Script.Token
import Spreadsheet.Script.Value

/-!
# Operators

What the operators of the script language do to values. Whole numbers stay whole and within 64 bits;
one float makes the operation one of floats. Floats are compared up to a relative error of `2 ^ -52`.
-/

namespace Spreadsheet.Script

namespace Value

/-- A whole number, if it fits into 64 bits. -/
def ofInt? (n : Int) : Except Error Value :=
  if minInt ≤ n ∧ n ≤ maxInt then .ok (.int n) else .error .overflow

/-- A text, if it is not too long. -/
def ofText? (t : Text) : Except Error Value :=
  if textSize t ≤ maxTextSize then .ok (.text t) else .error .tooLong

/-- The float that a number is or becomes. -/
def float? : Value → Option Float
  | int n => some (Float.ofInt n)
  | float x => some x
  | _ => none

/-- The text that a text or a character is. -/
def text? : Value → Option Text
  | text t => some t
  | char c => some [c]
  | _ => none

end Value

/-- The relative difference that comparisons of floats disregard. -/
def tolerance : Float := 2.220446049250313e-16

/-- The larger of two floats; one that is no number is passed over. -/
def larger (x y : Float) : Float := if x.isNaN then y else if y.isNaN then x else if x < y then y else x

/-- The difference of two floats relative to the larger one, or the plain difference if their product is
zero. There is none between zero and what is no number. -/
def relative (x y : Float) : Float :=
  let m := if x * y == 0 then 1 else larger x.abs y.abs
  if m == 0 then 0 else (x - y) / m

def compareFloats (x y : Float) : Binary → Option Bool
  | .equal => some ((relative x y).abs ≤ tolerance)
  | .unequal => some ((relative x y).abs > tolerance)
  | .greater => some (relative x y > tolerance)
  | .atLeast => some (relative x y > -tolerance)
  | .less => some (relative y x > tolerance)
  | .atMost => some (relative y x > -tolerance)
  | _ => none

/-- Compares values of one kind by an order that decides equality. -/
def compareBy {α : Type} [DecidableEq α] (less : α → α → Bool) (a b : α) : Binary → Option Bool
  | .equal => some (a = b)
  | .unequal => some (a ≠ b)
  | .less => some (less a b)
  | .greater => some (less b a)
  | .atMost => some (!less b a)
  | .atLeast => some (!less a b)
  | _ => none

/-- The answer of a comparison between values of different kinds: they differ, and that is all. -/
def compareKinds : Binary → Option Bool
  | .unequal => some true
  | .equal | .less | .atMost | .greater | .atLeast => some false
  | _ => none

namespace Value

/-- Compares two numbers, two texts or two truth values. -/
def compareScalars? (a b : Value) (op : Binary) : Option Bool :=
  match a, b with
  | int m, int n => compareBy (fun m n => m < n) m n op
  | bool p, bool q => compareBy (fun p q => !p && q) p q op
  | _, _ =>
    match a.float?, b.float? with
    | some x, some y => compareFloats x y op
    | _, _ =>
      match a.text?, b.text? with
      | some t, some u => compareBy (fun t u => decide (t < u)) t u op
      | _, _ => none

mutual

/-- Whether two values are equal. -/
def same : Value → Value → Bool
  | unit, unit => true
  | array as, array bs => sameItems as bs
  | map fs, map gs => sameFields fs gs
  | range a b c, range a' b' c' => a == a' && b == b' && c == c'
  | a, b => (compareScalars? a b .equal).getD false

def sameItems : List Value → List Value → Bool
  | [], [] => true
  | a :: as, b :: bs => same a b && sameItems as bs
  | _, _ => false

def sameFields : List (Text × Value) → List (Text × Value) → Bool
  | [], [] => true
  | (k, a) :: fs, (l, b) :: gs => k == l && same a b && sameFields fs gs
  | _, _ => false

end

/-- Compares any two values. Arrays, maps and ranges are equal or not and have no order, and a closed
range is not even equal to an open one. -/
def compare (op : Binary) (a b : Value) : Except Error Value :=
  match a, b with
  | unit, unit => .ok (.bool (op == .equal))
  | array _, array _ | map _, map _ => sameOrNot
  | range _ _ c, range _ _ c' =>
    if c == c' then sameOrNot else if op = .unequal then .ok (.bool true) else .error .mismatch
  | _, _ =>
    match (compareScalars? a b op).or (compareKinds op) with
    | some answer => .ok (.bool answer)
    | none => .error .mismatch
where
  /-- Whether the values are equal, for operators that ask no more. -/
  sameOrNot : Except Error Value :=
    match op with
    | .equal => .ok (.bool (same a b))
    | .unequal => .ok (.bool (!same a b))
    | _ => .error .mismatch

/-- The greatest exponent of a whole number. -/
def maxExponent : Int := 4294967295

/-- A power of a whole number; the exponent must be neither negative nor too large. -/
def powerInt (m n : Int) : Except Error Value :=
  if n < 0 ∨ maxExponent < n then .error .outOfRange
  else if m = 0 ∨ m = 1 then .ok (.int (if n = 0 then 1 else m))
  else if m = -1 then .ok (.int (if n % 2 = 0 then 1 else -1))
  else if 64 < n then .error .overflow
  else ofInt? (m.pow n.toNat)

/-- Calculates with whole numbers; division truncates. -/
def calculateInts (op : Binary) (m n : Int) : Except Error Value :=
  match op with
  | .add => ofInt? (m + n)
  | .subtract => ofInt? (m - n)
  | .multiply => ofInt? (m * n)
  | .divide => if n = 0 then .error .divisionByZero else ofInt? (m.tdiv n)
  | .modulo =>
    if n = 0 then .error .divisionByZero
    else if m = minInt ∧ n = -1 then .error .overflow
    else ofInt? (m.tmod n)
  | .power => powerInt m n
  | .meet => .ok (.int (Int64.ofInt m &&& Int64.ofInt n).toInt)
  | .meld => .ok (.int (Int64.ofInt m ||| Int64.ofInt n).toInt)
  | .differ => .ok (.int (Int64.ofInt m ^^^ Int64.ofInt n).toInt)
  | .upTo => .ok (.range m n false)
  | .through => .ok (.range m n true)
  | _ => .error .mismatch

def calculateFloats (op : Binary) (x y : Float) : Except Error Value :=
  match op with
  | .add => .ok (.float (x + y))
  | .subtract => .ok (.float (x - y))
  | .multiply => .ok (.float (x * y))
  | .divide => .ok (.float (x / y))
  | .modulo => .ok (.float (Double.remainder (.ofFloat x) (.ofFloat y)).toFloat)
  | .power => .ok (.float (x.pow y))
  | _ => .error .mismatch

def calculateBools (op : Binary) (p q : Bool) : Except Error Value :=
  match op with
  | .meet => .ok (.bool (p && q))
  | .meld => .ok (.bool (p || q))
  | .differ => .ok (.bool (p != q))
  | _ => .error .mismatch

/-- Joins a text or a character to a value on either side. -/
def join? (a b : Value) : Option Text :=
  match a, b with
  | text t, v => some (t ++ v.joined)
  | v, text t => some (v.joined ++ t)
  | char c, char d => some [c, d]
  | _, _ => none

/-- A text without the places where another one stands in it. -/
def without (part t : Text) : Text :=
  match part with
  | [] => t
  | _ :: _ => go (t.length + 1) t
where
  /-- Goes through the text from left to right. -/
  go : (room : Nat) → Text → Text
    | 0, t => t
    | _, [] => []
    | room + 1, c :: t => match Text.after? part (c :: t) with
      | some rest => go room rest
      | none => c :: go room t

/-- The fields of two maps, where the second has the last word. -/
def merge (fs gs : List (Text × Value)) : List (Text × Value) :=
  gs.foldl (fun all (k, v) => setField k v all) fs

def calculate (op : Binary) (a b : Value) : Except Error Value :=
  match a, b with
  | int m, int n => calculateInts op m n
  | bool p, bool q => calculateBools op p q
  | _, _ =>
    match a.float?, b.float? with
    | some x, some y => calculateFloats op x y
    | _, _ =>
      match op, a, b with
      | .add, array as, array bs => .ok (.array (as ++ bs))
      | .add, map fs, map gs => .ok (.map (merge fs gs))
      | .add, _, _ => match join? a b with
        | some t => ofText? t
        | none => .error .mismatch
      | .subtract, text t, text part => .ok (.text (if t.isEmpty then part else without part t))
      | .subtract, text t, char c => .ok (.text (without [c] t))
      | _, _, _ => .error .mismatch

/-- An operator between two values that have both been found. -/
def operate (op : Binary) (a b : Value) : Except Error Value :=
  if op.compares then compare op a b else calculate op a b

def operateUnary (op : Unary) (v : Value) : Except Error Value :=
  match op, v with
  | .negate, int n => ofInt? (-n)
  | .negate, float x => .ok (.float (-x))
  | .keep, int n => .ok (.int n)
  | .keep, float x => .ok (.float x)
  | .not, bool b => .ok (.bool !b)
  | _, _ => .error .mismatch

end Value

end Spreadsheet.Script
