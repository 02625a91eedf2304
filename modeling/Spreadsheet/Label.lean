import Spreadsheet.Text.Basic

/-!
# Column labels

The labels `A` to `Z`, `AA`, `AB` and so on: numbers in base 26 without a zero digit. `free` is the
first label, from a position on, that is not in use.
-/

namespace Spreadsheet.Label

def letter (n : Nat) : Char := Char.ofNat ('A'.toNat + n)

/-- The label at position `n`, counted from 0. -/
def ofIndex (n : Nat) : Text :=
  if n < 26 then [letter n] else ofIndex (n / 26 - 1) ++ [letter (n % 26)]
termination_by n
decreasing_by omega

/-- The position of a label, counted from 0, read in base 26 without a zero digit. -/
def index (label : Text) : Nat :=
  label.foldl (fun n c => 26 * n + (c.toNat - 'A'.toNat) + 1) 0 - 1

/-- The first label from `position` on that is not in `used`, after at most `tries` that are. -/
def firstFree (used : List Text) : (tries position : Nat) → Text
  | 0, position => ofIndex position
  | tries + 1, position =>
    if ofIndex position ∈ used then firstFree used tries (position + 1) else ofIndex position

/-- The first label that is not in `used`, from the position behind as many labels as are used. -/
def free (used : List Text) : Text := firstFree used used.length used.length

end Spreadsheet.Label
