import Spreadsheet.Text.Basic

/-!
# White space

Two classes: the white space of Unicode, which `trim` removes, and the five ASCII characters that may
stand between the words of a script. `isBlank_of_isGap`: the second class lies in the first.
-/

namespace Spreadsheet.Text

/-- The `White_Space` property of Unicode. -/
def isBlank (c : Char) : Bool :=
  let n := c.toNat
  (9 ≤ n && n ≤ 13) || n == 0x20 || n == 0x85 || n == 0xA0 || n == 0x1680 ||
    (0x2000 ≤ n && n ≤ 0x200A) || n == 0x2028 || n == 0x2029 || n == 0x202F || n == 0x205F || n == 0x3000

/-- ASCII white space: tab, line feed, form feed, carriage return and the space. -/
def isGap (c : Char) : Bool :=
  c == '\t' || c == '\n' || c == '\x0c' || c == '\r' || c == ' '

/-- The text without its leading white space. -/
def trimStart (t : Text) : Text := t.dropWhile isBlank

/-- The text without its trailing white space. -/
def trimEnd (t : Text) : Text := (t.reverse.dropWhile isBlank).reverse

/-- The text without white space on either side. -/
def trim (t : Text) : Text := trimEnd (trimStart t)

/-- The text holds nothing but white space. -/
def blank (t : Text) : Bool := t.all isBlank

theorem isBlank_of_isGap {c : Char} (h : isGap c = true) : isBlank c = true := by
  simp only [isGap, Bool.or_eq_true, beq_iff_eq] at h
  rcases h with (((rfl | rfl) | rfl) | rfl) | rfl <;> decide

end Spreadsheet.Text
