import Spreadsheet.Text.Basic

/-!
# Digits beyond ten

Hexadecimal digits, numbers in other bases, and characters given by their number.
-/

namespace Spreadsheet.Text

/-- The value of a hexadecimal digit. -/
def hexDigit? (c : Char) : Option Nat :=
  if isDigit c then some (digit c)
  else if 'a' ≤ c && c ≤ 'f' then some (c.toNat - 'a'.toNat + 10)
  else if 'A' ≤ c && c ≤ 'F' then some (c.toNat - 'A'.toNat + 10)
  else none

/-- The number written in a base by digits that are all below it. -/
def inBase? (base : Nat) (t : Text) : Option Nat :=
  t.foldlM (fun n c => do
    let d ← hexDigit? c
    if d < base then some (base * n + d) else none) 0

/-- The character whose number is written by the next `n` hexadecimal digits. -/
def charOfHex? (n : Nat) (t : Text) : Option (Char × Text) := do
  if (t.take n).length < n then none
  else
    let v ← inBase? 16 (t.take n)
    if v.isValidChar then some (Char.ofNat v, t.drop n) else none

theorem length_charOfHex? {n : Nat} {t u : Text} {c : Char} (h : charOfHex? n t = some (c, u)) :
    u.length ≤ t.length := by
  simp only [charOfHex?] at h
  split at h
  · simp at h
  · obtain ⟨v, _, h⟩ := Option.bind_eq_some_iff.1 h
    split at h
    · obtain ⟨-, rfl⟩ := by simpa using h
      simp
    · simp at h

end Spreadsheet.Text
