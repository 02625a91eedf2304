import Mathlib.Data.List.DropRight
import Spreadsheet.Text.Blank

/-!
# White space around a text

Trimming takes white space away on both sides and nothing else (`exists_trim`), and all of it (`trim_trim`,
`trim_between`).
-/

namespace Spreadsheet.Text

variable {c d : Char} {t : Text}

theorem blank_cons (h : blank (c :: t) = true) : isBlank c = true ∧ blank t = true := Bool.and_eq_true_iff.1 h

theorem trimEnd_prefix (t : Text) : trimEnd t <+: t := List.rdropWhile_prefix isBlank t

theorem trimEnd_append (t : Text) : ∃ after, t = trimEnd t ++ after ∧ blank after = true := by
  refine ⟨(t.reverse.takeWhile isBlank).reverse, ?_, ?_⟩
  · rw [trimEnd, ← List.reverse_append, List.takeWhile_append_dropWhile, List.reverse_reverse]
  · rw [blank, List.all_reverse, List.all_takeWhile]

theorem exists_trim (t : Text) : ∃ before after, blank before = true ∧ blank after = true ∧
    t = before ++ trim t ++ after := by
  obtain ⟨after, hafter, hblank⟩ := trimEnd_append (trimStart t)
  refine ⟨t.takeWhile isBlank, after, List.all_takeWhile, hblank, ?_⟩
  rw [trim, List.append_assoc, ← hafter]
  exact List.takeWhile_append_dropWhile.symm

/-- A text without white space around it has none to trim. -/
theorem trim_trim (t : Text) : trim (trim t) = trim t := by
  have hstart : trimStart (trim t) = trim t := by
    have hhead := List.head?_dropWhile_not isBlank t
    obtain ⟨rest, hrest⟩ := trimEnd_prefix (trimStart t)
    rw [← trimStart, ← hrest] at hhead
    rw [trim]
    cases h : trimEnd (trimStart t) with
    | nil => rfl
    | cons c u =>
      rw [h] at hhead
      have hc : isBlank c = false := by simpa using hhead
      rw [trimStart, List.dropWhile_cons_of_neg (by simp [hc])]
  rw [trim, hstart]
  exact List.rdropWhile_idempotent isBlank (trimStart t)

/-! ### White space written around a text -/

variable {a b : Text}

theorem trimStart_append (ha : blank a = true) (hc : isBlank c = false) (t : Text) :
    trimStart (a ++ c :: t) = c :: t := by
  rw [trimStart, List.dropWhile_append_of_pos (List.all_eq_true.1 ha), List.dropWhile_cons_of_neg (by simp [hc])]

theorem trim_eq_nil_of_blank (h : blank t = true) : trim t = [] := by
  have hstart : trimStart t = [] := List.dropWhile_eq_nil_iff.2 (List.all_eq_true.1 h)
  rw [trim, hstart]
  rfl

theorem trimEnd_append_blank (hb : blank b = true) (t : Text) : trimEnd (t ++ b) = trimEnd t := by
  have hreverse : ∀ c ∈ b.reverse, isBlank c = true := by simpa using List.all_eq_true.1 hb
  rw [trimEnd, List.reverse_append, List.dropWhile_append_of_pos hreverse, trimEnd]

theorem trim_between (ha : blank a = true) (hb : blank b = true) (t : Text) : trim (a ++ t ++ b) = trim t := by
  have hstart : trimStart (a ++ t ++ b) = trimStart (t ++ b) := by
    rw [trimStart, List.append_assoc, List.dropWhile_append_of_pos (List.all_eq_true.1 ha), trimStart]
  rw [trim, hstart, trimStart, List.dropWhile_append]
  split
  · next h =>
    have ht : blank t = true := List.all_eq_true.2 (List.dropWhile_eq_nil_iff.1 (List.isEmpty_iff.1 h))
    rw [trim_eq_nil_of_blank ht, List.dropWhile_eq_nil_iff.2 (List.all_eq_true.1 hb)]
    rfl
  · exact trimEnd_append_blank hb _

end Spreadsheet.Text
