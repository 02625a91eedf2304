/-!
# Doubles

What the bits of a double stand for: a sign, a whole number and a power of two, or one of the special
values. `remainder` divides exactly over the whole numbers.
-/

namespace Spreadsheet

/-- What a double stands for. -/
inductive Double
  | nan
  | infinite (negative : Bool)
  /-- The number `± m * 2 ^ q`. -/
  | finite (negative : Bool) (m : Nat) (q : Int)
  deriving DecidableEq, Repr

namespace Double

/-- The smallest exponent of two that a finite double has. -/
def minExponent : Int := -1074

/-- Reads 64 bits: one of sign, eleven of exponent and 52 of fraction. -/
def ofBits (bits : Nat) : Double :=
  let negative := bits / Nat.pow 2 63 % 2 == 1
  let exponent : Nat := bits / Nat.pow 2 52 % Nat.pow 2 11
  let fraction := bits % Nat.pow 2 52
  if exponent = 2047 then if fraction = 0 then infinite negative else nan
  else if exponent = 0 then finite negative fraction minExponent
  else finite negative (Nat.pow 2 52 + fraction) ((exponent : Int) - 1 + minExponent)

def ofFloat (x : Float) : Double := ofBits x.toBits.toNat

/-- The float for a double whose whole number is below `2 ^ 53`. -/
def toFloat : Double → Float
  | nan => 0.0 / 0.0
  | infinite negative => if negative then -1.0 / 0.0 else 1.0 / 0.0
  | finite negative m q =>
    let x := (Float.ofNat m).scaleB q
    if negative then -x else x

/-- The remainder of a truncating division, with the sign of the dividend. -/
def remainder : Double → Double → Double
  | finite negative m q, finite _ m' q' =>
    if m' = 0 then nan
    else
      let low := min q q'
      finite negative (m * Nat.pow 2 (q - low).toNat % (m' * Nat.pow 2 (q' - low).toNat)) low
  | finite negative m q, infinite _ => finite negative m q
  | _, _ => nan

end Double

end Spreadsheet
