import Spreadsheet.Number.Double

/-!
# Shortest decimals

The shortest decimal that reads back as a given double: the coarsest grid of powers of ten that has a
point among the numbers which round to the double, and on that grid the point next to the double. The
search tries one grid after the other, from coarse to fine, and looks at the two neighbours of the
double on each.
-/

namespace Spreadsheet

/-- The number `digits * 10 ^ exponent`. -/
structure Decimal where
  digits : Nat
  exponent : Int
  deriving DecidableEq, Repr

namespace Decimal

/-- The power of ten as a fraction: its numerator and its denominator. -/
def tenPow (e : Int) : Nat × Nat := (Nat.pow 10 e.toNat, Nat.pow 10 (-e).toNat)

/-- The numbers that round to the double `m * 2 ^ q`, in units of `2 ^ (q - 2)`: their lower bound,
the double and their upper bound. Just below a power of two the doubles lie twice as close. -/
def roundingBounds (m : Nat) (q : Int) : Nat × Nat × Nat :=
  let below := if m = Nat.pow 2 52 ∧ Double.minExponent < q then 1 else 2
  (4 * m - below, 4 * m, 4 * m + 2)

/-- The point of the grid `10 ^ e` that reads back as `m * 2 ^ q` and lies nearest to it; of two that
are equally near, the larger. The bounds themselves read back if `m` is even. -/
def onGrid? (m : Nat) (q e : Int) : Option Nat :=
  let (lower, value, upper) := roundingBounds m q
  let (twoNum, twoDen) := (Nat.pow 2 (q - 2).toNat, Nat.pow 2 (2 - q).toNat)
  let (tenNum, tenDen) := tenPow e
  let unit := tenNum * twoDen
  let scaled (n : Nat) := n * twoNum * tenDen
  let inside (d : Nat) : Bool :=
    if m % 2 = 0 then scaled lower ≤ d * unit && d * unit ≤ scaled upper
    else scaled lower < d * unit && d * unit < scaled upper
  let d := scaled value / unit
  let gap := scaled value - d * unit
  if inside (d + 1) && (!inside d || unit ≤ 2 * gap) then some (d + 1)
  else if inside d then some d
  else none

/-- Tries the grids from `10 ^ e` down. -/
def search (m : Nat) (q : Int) : (tries : Nat) → (e : Int) → Decimal
  | 0, e => ⟨0, e⟩
  | tries + 1, e =>
    match onGrid? m q e with
    | some d => ⟨d, e⟩
    | none => search m q tries (e - 1)

/-- The shortest decimal that reads back as `m * 2 ^ q`, for `0 < m`. The search starts above the
double, where no grid has a point, and ends within eighteen digits. -/
def shortest (m : Nat) (q : Int) : Decimal :=
  search m q 24 (((m.log2 : Int) + q + 1) * 30103 / 100000 + 2)

end Decimal

end Spreadsheet
