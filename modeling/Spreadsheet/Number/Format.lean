import Spreadsheet.Text.Basic
import Spreadsheet.Number.Shortest

/-!
# Number formats

How the shortest decimal of a number is laid out: in full or with an exponent, with or without `.0`
behind whole numbers. A `NumberFormat` records the decisions; the three formats of the program are
`display`, `joined` and `listed`.
-/

namespace Spreadsheet

namespace Decimal

/-- The digits of the decimal in full, without an exponent. -/
def positional (d : Decimal) : Text :=
  let ds := Text.decimal d.digits
  if 0 ≤ d.exponent then ds ++ List.replicate d.exponent.toNat '0'
  else
    let places := (-d.exponent).toNat
    if places < ds.length then ds.take (ds.length - places) ++ '.' :: ds.drop (ds.length - places)
    else '0' :: '.' :: List.replicate (places - ds.length) '0' ++ ds

/-- One digit before the point and an exponent of ten. -/
def scientific (d : Decimal) : Text :=
  let ds := Text.decimal d.digits
  let fraction := ds.drop 1
  ds.take 1 ++ (if fraction.isEmpty then [] else '.' :: fraction) ++
    'e' :: Text.integer (d.exponent + fraction.length)

end Decimal

/-- The decisions of a number format. -/
structure NumberFormat where
  /-- The magnitudes written with an exponent. -/
  scientific : Float → Bool
  /-- Whole numbers written in full get `.0`. -/
  point : Bool
  /-- Zero keeps its sign. -/
  signedZero : Bool
  nan : Text
  infinity : Text
  /-- Infinities keep their sign. -/
  signedInfinity : Bool

namespace NumberFormat

def write (f : NumberFormat) (x : Float) : Text :=
  let sign (negative : Bool) (t : Text) := if negative then '-' :: t else t
  let whole (t : Text) := if f.point then t ++ ['.', '0'] else t
  match Double.ofFloat x with
  | .nan => f.nan
  | .infinite negative => sign (negative && f.signedInfinity) f.infinity
  | .finite negative m q =>
    if m = 0 then sign (negative && f.signedZero) (whole ['0'])
    else
      let d := Decimal.shortest m q
      sign negative <|
        if f.scientific x.abs then d.scientific
        else if 0 ≤ d.exponent then whole d.positional
        else d.positional

/-- Cells show numbers in full, and whole numbers without a point. -/
def display : NumberFormat where
  scientific _ := false
  point := false
  signedZero := false
  nan := "#NAN!".toList
  infinity := "#INF!".toList
  signedInfinity := false

/-- Numbers joined to a text have a point or an exponent. The exponent is used outside the single
precision neighbours of `1e-13` and `1e13`. -/
def joined : NumberFormat where
  scientific a := a > 9999999827968.0 || a < 9.9999998245167e-14
  point := true
  signedZero := false
  nan := "NaN".toList
  infinity := "inf".toList
  signedInfinity := true

/-- Numbers inside a joined array or map have a point or an exponent. The exponent is used from `1e16`
up and below `1e-4`. -/
def listed : NumberFormat where
  scientific a := a ≥ 1e16 || a < 1e-4
  point := true
  signedZero := true
  nan := "NaN".toList
  infinity := "inf".toList
  signedInfinity := true

end NumberFormat

end Spreadsheet
