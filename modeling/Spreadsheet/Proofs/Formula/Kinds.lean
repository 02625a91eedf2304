import Spreadsheet.Formula.Packing
import Spreadsheet.Proofs.Script.Lexing
import Spreadsheet.Text.Word

/-!
# Kinds of characters

References, names and numbers are each read up to the first character of another kind, and every reader has kinds of its
own. Here is how they are related. A function of any number of values has a name in small letters (`small_name`), which
belong to every kind that a word is made of and to none that a reference or a number begins with.
-/

namespace Spreadsheet.Formula

open Script (Function)
open Script.Token (isNameChar isDigit_of_isLetter)
open Text (isWord isBlank isGap isDigit isCapital isLetter isIdent)

variable {c : Char}

theorem not_of_imp_not {p q : Char → Bool} (hpq : ∀ {c}, p c = true → q c = false) (h : q c = true) : p c = false := by
  rw [Bool.eq_false_iff]
  intro hp
  rw [hpq hp] at h
  cases h

/-! ### Words -/

theorem isWord_of_isNameChar (h : isNameChar c = true) : isWord c = true := by
  have hlt : c.toNat < 128 := by
    simp only [isNameChar, isLetter, isCapital, isDigit, Bool.or_eq_true, Bool.and_eq_true, decide_eq_true_eq, Char.le_def,
      beq_iff_eq, UInt32.le_iff_toNat_le] at h
    rcases h with (((h | h) | h) | rfl)
    · exact Nat.lt_of_le_of_lt h.2 (by decide)
    · exact Nat.lt_of_le_of_lt h.2 (by decide)
    · exact Nat.lt_of_le_of_lt h.2 (by decide)
    · decide
  rw [Text.isWord_of_ascii hlt]
  exact h

theorem isNameChar_of_not_isWord (h : isWord c = false) : isNameChar c = false :=
  Bool.eq_false_iff.2 fun hname => by rw [isWord_of_isNameChar hname] at h; cases h

theorem isNameChar_of_isDigit (h : isDigit c = true) : isNameChar c = true := by simp [isNameChar, h]

theorem isNameChar_of_isLetter (h : isLetter c = true) : isNameChar c = true := by simp [isNameChar, h]

theorem isWord_of_isDigit (h : isDigit c = true) : isWord c = true := isWord_of_isNameChar (isNameChar_of_isDigit h)

theorem isDigit_of_not_isWord (h : isWord c = false) : isDigit c = false :=
  Bool.eq_false_iff.2 fun hd => Bool.eq_false_iff.1 h (isWord_of_isDigit hd)

theorem isWord_of_isBlank (h : isBlank c = true) : isWord c = false := by
  have all : ∀ n ∈ [9, 10, 11, 12, 13, 0x20, 0x85, 0xA0, 0x1680, 0x2000, 0x2001, 0x2002, 0x2003, 0x2004,
      0x2005, 0x2006, 0x2007, 0x2008, 0x2009, 0x200A, 0x2028, 0x2029, 0x202F, 0x205F, 0x3000],
      isWord (Char.ofNat n) = false := by decide +kernel
  rw [← Char.ofNat_toNat c]
  refine all _ ?_
  simp only [isBlank, Bool.or_eq_true, Bool.and_eq_true, decide_eq_true_eq, beq_iff_eq] at h
  simp only [List.mem_cons, List.not_mem_nil, or_false]
  omega

theorem isBlank_of_isWord (h : isWord c = true) : isBlank c = false := not_of_imp_not isWord_of_isBlank h

/-! ### Capital letters -/

theorem isLetter_of_isCapital (h : isCapital c = true) : isLetter c = true := Bool.or_eq_true_iff.2 (.inl h)

theorem isWord_of_isCapital (h : isCapital c = true) : isWord c = true :=
  isWord_of_isNameChar (isNameChar_of_isLetter (isLetter_of_isCapital h))

theorem isCapital_of_not_isWord (h : isWord c = false) : isCapital c = false :=
  Bool.eq_false_iff.2 fun hcapital => Bool.eq_false_iff.1 h (isWord_of_isCapital hcapital)

theorem isDigit_of_isCapital (h : isCapital c = true) : isDigit c = false := isDigit_of_isLetter (isLetter_of_isCapital h)

theorem isCapital_of_isDigit (h : isDigit c = true) : isCapital c = false := not_of_imp_not isDigit_of_isCapital h

/-! ### What glues -/

theorem glues_of_isIdent (h : isIdent c = true) : glues c = true := Bool.or_eq_true_iff.2 (.inl h)

theorem isIdent_of_isLetter (h : isLetter c = true) : isIdent c = true := by simp [isIdent, h]

theorem glues_of_isDigit (h : isDigit c = true) : glues c = true := glues_of_isIdent (by simp [isIdent, h])

theorem glues_of_isNameChar (h : isNameChar c = true) : glues c = true := by
  simp only [isNameChar, Bool.or_eq_true] at h
  rcases h with (h | h) | h <;> simp [glues, isIdent, h]

theorem isWord_of_glues (hc : glues c = false) : isWord c = false := by
  simp only [glues, isIdent, Bool.or_eq_false_iff, decide_eq_false_iff_not, Nat.not_le] at hc
  rw [Text.isWord_of_ascii hc.1.2, hc.1.1.1.1, hc.1.1.1.2, hc.1.1.2]
  rfl

theorem isIdent_of_isGap (h : isGap c = true) : isIdent c = false := by
  simp only [isGap, Bool.or_eq_true, beq_iff_eq] at h
  rcases h with (((rfl | rfl) | rfl) | rfl) | rfl <;> decide

/-! ### Names of functions -/

/-- A small letter is one of `a` to `z`. -/
def isSmall (c : Char) : Bool := 'a' ≤ c && c ≤ 'z'

theorem isLetter_of_isSmall (h : isSmall c = true) : isLetter c = true := Bool.or_eq_true_iff.2 (.inr h)

theorem isWord_of_isSmall (h : isSmall c = true) : isWord c = true :=
  isWord_of_isNameChar (isNameChar_of_isLetter (isLetter_of_isSmall h))

theorem isCapital_of_isSmall (h : isSmall c = true) : isCapital c = false := by
  simp only [isSmall, Bool.and_eq_true, decide_eq_true_eq] at h
  simp only [isCapital, Bool.and_eq_false_iff, decide_eq_false_iff_not]
  exact .inr fun h' => absurd (Char.le_trans h.1 h') (by decide)

variable {f : Function}

theorem small_name (hf : f.isVariadic = true) : ∃ c w, f.name = c :: w ∧ ∀ d ∈ c :: w, isSmall d = true := by
  cases f with
  | sum | mean | min | max | count => exact ⟨_, _, rfl, by decide⟩
  | _ => cases hf

end Spreadsheet.Formula
