import Mathlib.Data.List.Induction
import Mathlib.Data.List.Nodup
import Mathlib.Data.List.Perm.Subperm
import Spreadsheet.Label

/-!
# Column labels are distinct

`index_ofIndex`: a label tells its position, so no two positions share a label, and `ofIndex_index`: every word of
capital letters is the label at the position that it tells. Along the positions labels never get shorter, and those of
one length are in alphabetical order (`ofIndex_ordered`).

`exists_free`: the label of a new column is the first one, from the position behind the last column on, that no column
carries; by the pigeonhole principle it is found within as many steps as there are columns. `Searches` is the search
without a limit to its steps.
-/

namespace Spreadsheet.Label

/-- A nonempty word of capital letters. -/
def IsWord (label : Text) : Prop := label ≠ [] ∧ ∀ c ∈ label, Text.isCapital c

theorem toNat_letter {n : Nat} (h : n < 26) : (letter n).toNat = 'A'.toNat + n := by
  have all : ∀ m : Fin 26, (letter m).toNat = 'A'.toNat + m := by decide
  exact all ⟨n, h⟩

theorem isCapital_letter {n : Nat} (h : n < 26) : Text.isCapital (letter n) := by
  have all : ∀ m : Fin 26, Text.isCapital (letter m) := by decide
  exact all ⟨n, h⟩

theorem isWord_ofIndex (n : Nat) : IsWord (ofIndex n) := by
  fun_induction ofIndex n with
  | case1 n h => exact ⟨by simp, by simpa using isCapital_letter h⟩
  | case2 n h ih =>
    refine ⟨by simp, fun c hc => ?_⟩
    rcases List.mem_append.1 hc with hc | hc
    · exact ih.2 c hc
    · rw [List.mem_singleton.1 hc]
      exact isCapital_letter (Nat.mod_lt n (by decide))

/-- Reading a label digit by digit gives its position counted from 1. -/
theorem foldl_ofIndex (n : Nat) :
    (ofIndex n).foldl (fun n c => 26 * n + (c.toNat - 'A'.toNat) + 1) 0 = n + 1 := by
  fun_induction ofIndex n with
  | case1 n h => simp [toNat_letter h]
  | case2 n h ih =>
    have hm : n % 26 < 26 := Nat.mod_lt n (by decide)
    rw [List.foldl_append, ih, List.foldl_cons, List.foldl_nil, toNat_letter hm]
    omega

theorem index_ofIndex (n : Nat) : index (ofIndex n) = n := by
  rw [index, foldl_ofIndex, Nat.add_sub_cancel]

theorem ofIndex_injective : Function.Injective ofIndex :=
  Function.LeftInverse.injective index_ofIndex

/-! ### Words as labels -/

theorem letter_sub {c : Char} (h : Text.isCapital c = true) :
    c.toNat - 'A'.toNat < 26 ∧ letter (c.toNat - 'A'.toNat) = c := by
  simp only [Text.isCapital, Bool.and_eq_true, decide_eq_true_eq, Char.le_def, UInt32.le_iff_toNat_le] at h
  have hlower : 'A'.toNat ≤ c.toNat := h.1
  have hupper : c.toNat ≤ 'Z'.toNat := h.2
  have hA : 'A'.toNat = 65 := rfl
  have hZ : 'Z'.toNat = 90 := rfl
  have hlt : c.toNat - 'A'.toNat < 26 := by omega
  refine ⟨hlt, Char.toNat_inj.1 ?_⟩
  rw [toNat_letter hlt]
  omega

/-- The letter behind a word counts the words before it, and each of them 26 times. -/
theorem index_snoc {label : Text} (hne : label ≠ []) (c : Char) :
    index (label ++ [c]) = 26 * (index label + 1) + (c.toNat - 'A'.toNat) := by
  have hpos : 0 < label.foldl (fun n c => 26 * n + (c.toNat - 'A'.toNat) + 1) 0 := by
    rcases List.eq_nil_or_concat label with rfl | ⟨before, last, rfl⟩
    · exact absurd rfl hne
    · rw [List.concat_eq_append, List.foldl_append]
      exact Nat.succ_pos _
  rw [index, index, List.foldl_append, List.foldl_cons, List.foldl_nil]
  omega

/-- A word of capital letters is the label at the position that it tells. -/
theorem ofIndex_index {label : Text} (h : IsWord label) : ofIndex (index label) = label := by
  obtain ⟨hne, hcapital⟩ := h
  induction label using List.reverseRecOn with
  | nil => exact absurd rfl hne
  | append_singleton before c ih =>
    obtain ⟨hbefore, hc⟩ := List.forall_mem_append.1 hcapital
    obtain ⟨hlt, hletter⟩ := letter_sub (hc c (List.mem_singleton_self c))
    by_cases hnil : before = []
    · subst hnil
      have hindex : index [c] = c.toNat - 'A'.toNat := by simp [index]
      rw [List.nil_append, hindex, ofIndex, if_pos hlt, hletter]
    · rw [index_snoc hnil, ofIndex, if_neg (by omega)]
      have hdiv : (26 * (index before + 1) + (c.toNat - 'A'.toNat)) / 26 - 1 = index before := by omega
      have hmod : (26 * (index before + 1) + (c.toNat - 'A'.toNat)) % 26 = c.toNat - 'A'.toNat := by omega
      rw [hdiv, hmod, ih hnil hbefore, hletter]

/-! ### The order of labels -/

theorem lex_append {s t : Text} (h : s < t) (hlength : s.length = t.length) (u v : Text) : s ++ u < t ++ v := by
  induction h with
  | nil => simp at hlength
  | cons _ ih => exact .cons (ih (Nat.succ.inj hlength))
  | rel h => exact .rel h

theorem letter_lt {n m : Nat} (h : n < m) (hm : m < 26) : letter n < letter m := by
  rw [Char.lt_def, UInt32.lt_iff_toNat_lt]
  have hn := toNat_letter (Nat.lt_trans h hm)
  have hm := toNat_letter hm
  show (letter n).toNat < (letter m).toNat
  omega

/-- Shorter labels come first, and labels of one length in alphabetical order. -/
theorem ofIndex_ordered {i j : Nat} (h : i < j) : (ofIndex i).length < (ofIndex j).length ∨
    (ofIndex i).length = (ofIndex j).length ∧ ofIndex i < ofIndex j := by
  induction j using Nat.strongRecOn generalizing i with
  | ind j ih =>
    by_cases hj : j < 26
    · have hi : i < 26 := by omega
      rw [ofIndex, ofIndex.eq_def j, if_pos hi, if_pos hj]
      exact .inr ⟨rfl, .rel (letter_lt h hj)⟩
    · rw [ofIndex.eq_def j, if_neg hj, List.length_append, List.length_singleton]
      have hpos : 0 < (ofIndex (j / 26 - 1)).length := List.length_pos_iff.2 (isWord_ofIndex _).1
      by_cases hi : i < 26
      · rw [ofIndex, if_pos hi, List.length_singleton]
        exact .inl (by omega)
      · rw [ofIndex, if_neg hi, List.length_append, List.length_singleton]
        -- the last letters decide only if the labels before them are the same
        rcases Nat.lt_or_eq_of_le (show i / 26 - 1 ≤ j / 26 - 1 by omega) with hlt | heq
        · rcases ih (j / 26 - 1) (by omega) hlt with hlength | ⟨hlength, hlex⟩
          · exact .inl (by omega)
          · exact .inr ⟨by omega, lex_append hlex hlength _ _⟩
        · rw [heq]
          refine .inr ⟨rfl, List.append_left_lt ?_⟩
          exact .rel (letter_lt (by omega) (Nat.mod_lt j (by decide)))

/-! ### Free labels -/

/-- The search stops at the first position whose label is free, or gives up after `tries`. -/
theorem exists_firstFree (used : List Text) (tries position : Nat) :
    ∃ k ≤ tries, firstFree used tries position = ofIndex (position + k) ∧
      (∀ j < k, ofIndex (position + j) ∈ used) ∧ (k < tries → ofIndex (position + k) ∉ used) := by
  induction tries generalizing position with
  | zero => exact ⟨0, Nat.le_refl _, rfl, by simp, by simp⟩
  | succ tries ih =>
    rw [firstFree]
    split
    · next hused =>
      obtain ⟨k, hk, heq, hbefore, hfree⟩ := ih (position + 1)
      have hshift : ∀ j, position + 1 + j = position + (j + 1) := by omega
      refine ⟨k + 1, by omega, by rw [heq, hshift], fun j hj => ?_, fun hlt => ?_⟩
      · cases j with
        | zero => exact hused
        | succ j => rw [← hshift]; exact hbefore j (by omega)
      · rw [← hshift]; exact hfree (by omega)
    · next hfree => exact ⟨0, Nat.zero_le _, rfl, by simp, fun _ => hfree⟩

/-- Not all of the labels at `used.length + 1` positions are in use. -/
theorem exists_ofIndex_not_mem (used : List Text) (position : Nat) :
    ∃ k ≤ used.length, ofIndex (position + k) ∉ used := by
  by_contra! hall
  have hsub : (List.range (used.length + 1)).map (fun k => ofIndex (position + k)) ⊆ used := by
    intro label hlabel
    obtain ⟨k, hk, rfl⟩ := List.mem_map.1 hlabel
    exact hall k (Nat.lt_succ_iff.1 (List.mem_range.1 hk))
  have hnodup : ((List.range (used.length + 1)).map fun k => ofIndex (position + k)).Nodup :=
    List.nodup_range.map fun a b h => Nat.add_left_cancel (ofIndex_injective h)
  have hle := (hnodup.subperm hsub).length_le
  rw [List.length_map, List.length_range] at hle
  omega

/-- The label for a new column is the first free one from the position behind the last column on. -/
theorem exists_free (used : List Text) :
    ∃ k ≤ used.length, free used = ofIndex (used.length + k) ∧
      (∀ j < k, ofIndex (used.length + j) ∈ used) ∧ ofIndex (used.length + k) ∉ used := by
  obtain ⟨k, hk, heq, hbefore, hfree⟩ := exists_firstFree used used.length used.length
  refine ⟨k, hk, heq, hbefore, ?_⟩
  rcases Nat.lt_or_eq_of_le hk with hlt | rfl
  · exact hfree hlt
  · obtain ⟨j, hj, hmem⟩ := exists_ofIndex_not_mem used used.length
    rcases Nat.lt_or_eq_of_le hj with hlt | rfl
    · exact absurd (hbefore j hlt) hmem
    · exact hmem

/-- The search that looks at one label after the other, from a position on, until one is not in use: how many it looks
at, and the one that it finds. -/
inductive Searches (used : List Text) : (position looked : Nat) → Text → Prop
  | found {position : Nat} (h : ofIndex position ∉ used) : Searches used position 1 (ofIndex position)
  | next {position looked : Nat} {label : Text} (h : ofIndex position ∈ used)
      (hrest : Searches used (position + 1) looked label) : Searches used position (looked + 1) label

theorem searches_of {used : List Text} {k position : Nat} (hbefore : ∀ j < k, ofIndex (position + j) ∈ used)
    (hfree : ofIndex (position + k) ∉ used) : Searches used position (k + 1) (ofIndex (position + k)) := by
  induction k generalizing position with
  | zero => exact .found hfree
  | succ k ih =>
    have hshift : ∀ j, position + 1 + j = position + (j + 1) := by omega
    refine .next (hbefore 0 (Nat.succ_pos k)) ?_
    rw [← hshift k] at hfree ⊢
    refine ih (fun j hj => ?_) hfree
    rw [hshift]
    exact hbefore (j + 1) (by omega)

theorem Searches.functional {used : List Text} {position n m : Nat} {label label' : Text}
    (h : Searches used position n label) (h' : Searches used position m label') : n = m ∧ label = label' := by
  induction h generalizing m with
  | found hfree =>
    cases h' with
    | found => exact ⟨rfl, rfl⟩
    | next hused => exact absurd hused hfree
  | next hused _ ih =>
    cases h' with
    | found hfree => exact absurd hused hfree
    | next _ hrest =>
      obtain ⟨hn, hlabel⟩ := ih hrest
      exact ⟨congrArg (· + 1) hn, hlabel⟩

theorem free_not_mem (used : List Text) : free used ∉ used := by
  obtain ⟨k, -, heq, -, hfree⟩ := exists_free used
  rw [heq]; exact hfree

theorem isWord_free (used : List Text) : IsWord (free used) := by
  obtain ⟨k, -, heq, -, -⟩ := exists_free used
  rw [heq]; exact isWord_ofIndex _

end Spreadsheet.Label
