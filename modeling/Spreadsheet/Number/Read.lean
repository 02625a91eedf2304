import Spreadsheet.Text.Basic
import Spreadsheet.Number.Shortest

/-!
# Reading numbers

The float nearest to a decimal, and the decimal notation that cell texts may use: a sign, digits with a
point anywhere among them, and an exponent.
-/

namespace Spreadsheet

namespace Decimal

/-- The float nearest to a decimal. Decimals of a magnitude that no float has are settled by their
length alone. -/
def toFloat (d : Decimal) : Float :=
  if d.digits = 0 then 0.0
  else
    let length : Int := (Text.decimal d.digits).length
    if 310 ≤ length + d.exponent then 1.0 / 0.0
    else if length + d.exponent ≤ -324 then 0.0
    else Float.ofScientific d.digits (d.exponent < 0) d.exponent.natAbs

/-- The decimal written by the digits before and behind a point and an exponent. -/
def ofParts (whole fraction : Text) (exponent : Int) : Decimal :=
  ⟨Text.value (whole ++ fraction), exponent - fraction.length⟩

end Decimal

namespace Number

def sign : Text → Bool × Text
  | '-' :: t => (true, t)
  | '+' :: t => (false, t)
  | t => (false, t)

/-- The exponent that makes up the whole text: nothing, or `e` with a sign and digits. -/
def exponent? : Text → Option Int
  | [] => some 0
  | c :: t =>
    if c = 'e' ∨ c = 'E' then
      let (negative, digits) := sign t
      if digits.isEmpty || !digits.all Text.isDigit then none
      else
        let n : Int := Text.value digits
        some (if negative then -n else n)
    else none

/-- The number that a text denotes in decimal notation; there must be a digit beside the point. -/
def read? (t : Text) : Option Float := do
  let (negative, t) := sign t
  let whole := t.takeWhile Text.isDigit
  let t := t.dropWhile Text.isDigit
  let (fraction, t) := match t with
    | '.' :: t => (t.takeWhile Text.isDigit, t.dropWhile Text.isDigit)
    | t => ([], t)
  if whole.isEmpty && fraction.isEmpty then none
  else
    let e ← exponent? t
    let x := (Decimal.ofParts whole fraction e).toFloat
    some (if negative then -x else x)

end Number

end Spreadsheet
