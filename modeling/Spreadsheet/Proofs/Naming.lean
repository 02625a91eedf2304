import Spreadsheet.Proofs.Formula.Dependence
import Spreadsheet.Proofs.Formula.Grammar

/-!
# The names of cells

`Names`: a token is the label of a cell's column, perhaps some zeros, and the number of the cell's row counted from 1.
Digits are read as the number that they are the decimal digits of, behind zeros (`eq_zeros_append_iff`), so a token
splits into exactly one label and one row (`split?_eq_some_iff`), and the name of a position into its label and its row
(`Cell.split?_name`). The labels of a grid are distinct words of capital letters whatever columns have come and gone, so
the cell that a token finds is the one that it names, and every cell has a name of its own (`locate?_iff_names`).
-/

namespace Spreadsheet

namespace Text

variable {t : Text} {c : Char} {n : Nat}

theorem value_decimal (n : Nat) : value (decimal n) = n := Nat.ofDigitChars_toDigits (by decide) (by decide)

theorem value_snoc (t : Text) (c : Char) : value (t ++ [c]) = 10 * value t + digit c := by
  rw [value_append, List.foldl_cons, List.foldl_nil]

theorem value_zeros (k : Nat) : value (List.replicate k '0') = 0 := by
  induction k with
  | zero => rfl
  | succ k ih => rw [List.replicate_succ', value_snoc, ih]; rfl

theorem value_zeros_append (k : Nat) (t : Text) : value (List.replicate k '0' ++ t) = value t := by
  rw [value_append, value_zeros]
  rfl

theorem digit_lt (h : isDigit c = true) : digit c < 10 ∧ c.toNat = '0'.toNat + digit c := by
  simp only [isDigit, Bool.and_eq_true, decide_eq_true_eq, Char.le_def, UInt32.le_iff_toNat_le] at h
  have hlower : '0'.toNat ≤ c.toNat := h.1
  have hupper : c.toNat ≤ '9'.toNat := h.2
  have h0 : '0'.toNat = 48 := rfl
  have h9 : '9'.toNat = 57 := rfl
  rw [digit]
  omega

theorem decimal_digit (h : isDigit c = true) : decimal (digit c) = [c] := by
  obtain ⟨hlt, hc⟩ := digit_lt h
  rw [decimal, Nat.toDigits_of_lt_base hlt, List.singleton_inj, ← Char.toNat_inj, Nat.toNat_digitChar_of_lt_ten hlt]
  exact hc.symm

theorem eq_zeros_of_value_eq_zero (h : ∀ c ∈ t, isDigit c = true) (hvalue : value t = 0) :
    t = List.replicate t.length '0' := by
  induction t using List.reverseRecOn with
  | nil => rfl
  | append_singleton t c ih =>
    rw [value_snoc] at hvalue
    obtain ⟨ht, hc⟩ := List.forall_mem_append.1 h
    obtain ⟨-, hdigit⟩ := digit_lt (hc c (List.mem_singleton_self c))
    obtain rfl : c = '0' := Char.toNat_inj.1 (by omega)
    rw [List.length_append, List.length_singleton, List.replicate_succ', ← ih ht (by omega)]

/-- Digits are those of their number, behind zeros. -/
theorem exists_zeros_append (hne : t ≠ []) (h : ∀ c ∈ t, isDigit c = true) :
    ∃ k, t = List.replicate k '0' ++ decimal (value t) := by
  induction t using List.reverseRecOn with
  | nil => exact absurd rfl hne
  | append_singleton t c ih =>
    obtain ⟨ht, hc⟩ := List.forall_mem_append.1 h
    have hlast := hc c (List.mem_singleton_self c)
    rw [value_snoc]
    rcases Nat.eq_zero_or_pos (value t) with hzero | hpos
    · refine ⟨t.length, ?_⟩
      rw [hzero, Nat.mul_zero, Nat.zero_add, decimal_digit hlast, ← eq_zeros_of_value_eq_zero ht hzero]
    · have hne : t ≠ [] := by
        rintro rfl
        exact Nat.lt_irrefl 0 hpos
      obtain ⟨k, hk⟩ := ih hne ht
      refine ⟨k, ?_⟩
      have happend : decimal (10 * value t + digit c) = decimal (value t) ++ [c] := by
        rw [← decimal_digit hlast]
        exact (Nat.toDigits_append_toDigits (by decide) hpos (digit_lt hlast).1).symm
      rw [happend, ← List.append_assoc, ← hk]

theorem eq_zeros_append_iff :
    (t ≠ [] ∧ (∀ c ∈ t, isDigit c = true) ∧ value t = n) ↔ ∃ k, t = List.replicate k '0' ++ decimal n := by
  constructor
  · rintro ⟨hne, hdigits, rfl⟩
    exact exists_zeros_append hne hdigits
  · rintro ⟨k, rfl⟩
    refine ⟨by simp [decimal_ne], List.forall_mem_append.2 ⟨fun c hc => ?_, isDigit_decimal n⟩, ?_⟩
    · rw [List.eq_of_mem_replicate hc]
      rfl
    · rw [value_zeros_append, value_decimal]

end Text

namespace Token

open Formula (IsToken isReference_iff head?_digits)

variable {token label : Text} {row : Nat}

theorem cut {letters digits : Text} (hletters : Label.IsWord letters) (hne : digits ≠ [])
    (hdigits : ∀ c ∈ digits, Text.isDigit c = true) :
    (letters ++ digits).takeWhile Text.isCapital = letters ∧ (letters ++ digits).dropWhile Text.isCapital = digits := by
  have hhead := head?_digits hdigits hne []
  rw [List.append_nil] at hhead
  exact Text.takeWhile_append_of_head? hletters.2 hhead

theorem split?_append {letters digits : Text} (hletters : Label.IsWord letters) (hne : digits ≠ [])
    (hdigits : ∀ c ∈ digits, Text.isDigit c = true) :
    split? (letters ++ digits) =
      if 1 ≤ Text.value digits ∧ Text.value digits ≤ maxRow then some (letters, Text.value digits - 1) else none := by
  obtain ⟨htake, hdrop⟩ := cut hletters hne hdigits
  have htoken : isReference (letters ++ digits) = true :=
    isReference_iff.2 ⟨letters, digits, rfl, hletters.1, hne, hletters.2, hdigits⟩
  simp only [split?, htoken, htake, hdrop, if_true]

/-- A token splits into a label and a row, if it is the label with the number of the row behind it. -/
theorem split?_eq_some_iff : split? token = some (label, row) ↔
    Label.IsWord label ∧ row < maxRow ∧ ∃ k, token = label ++ (List.replicate k '0' ++ Text.decimal (row + 1)) := by
  constructor
  · intro h
    have hreference : isReference token = true := by
      by_contra hnot
      simp [split?, hnot] at h
    obtain ⟨letters, digits, rfl, hletters, hne, hcapital, hdigits⟩ := isReference_iff.1 hreference
    rw [split?_append ⟨hletters, hcapital⟩ hne hdigits] at h
    split at h
    · next hbounds =>
      obtain ⟨rfl, rfl⟩ := Prod.mk.inj (Option.some.inj h)
      have hrow : Text.value digits - 1 + 1 = Text.value digits := by omega
      obtain ⟨k, hk⟩ := Text.exists_zeros_append hne hdigits
      exact ⟨⟨hletters, hcapital⟩, by omega, k, by rw [hrow, ← hk]⟩
    · cases h
  · rintro ⟨hlabel, hrow, k, rfl⟩
    obtain ⟨hne, hdigits, hvalue⟩ := Text.eq_zeros_append_iff.2 ⟨k, rfl⟩
    rw [split?_append hlabel hne hdigits, hvalue, if_pos ⟨by omega, by omega⟩, Nat.add_sub_cancel]

end Token

/-! ### Labels and names of positions -/

theorem Cell.split?_name (c : Cell) (h : c.row < Token.maxRow) :
    Token.split? c.name = some (Label.ofIndex c.col, c.row) :=
  Token.split?_eq_some_iff.2 ⟨Label.isWord_ofIndex c.col, h, 0, rfl⟩

/-- The label at each position is a word of capital letters, reading it gives the position back, and every word of
capital letters is the label at the position that it reads as. A label comes after those at smaller positions: it is
longer, or as long and behind in the alphabet. So the name of a cell splits into the label of its column and its row,
if the row can be counted in 64 bits. -/
theorem Label.ofIndex_exact :
    (∀ n, IsWord (ofIndex n) ∧ index (ofIndex n) = n) ∧
    (∀ i j, i < j → (ofIndex i).length < (ofIndex j).length ∨
      (ofIndex i).length = (ofIndex j).length ∧ ofIndex i < ofIndex j) ∧
    (∀ label, IsWord label → ofIndex (index label) = label) ∧
    ∀ c : Cell, c.row < Token.maxRow → Token.split? c.name = some (ofIndex c.col, c.row) :=
  ⟨fun n => ⟨isWord_ofIndex n, index_ofIndex n⟩, fun _ _ => ofIndex_ordered, fun _ => ofIndex_index, Cell.split?_name⟩

/-- The label at the last position that 64 bits can count, the step from two letters to three, and a name. -/
theorem Label.ofIndex_exact_last :
    ofIndex 18446744073709551615 = "GKGWBYLWRXTLPP".toList ∧
      ((ofIndex 701).length < (ofIndex 702).length ∨
        (ofIndex 701).length = (ofIndex 702).length ∧ ofIndex 701 < ofIndex 702) ∧
      Token.split? (Cell.name ⟨9, 26⟩) = some (ofIndex 26, 9) := by
  obtain ⟨-, hordered, hwords, hnames⟩ := ofIndex_exact
  have hindex : index "GKGWBYLWRXTLPP".toList = 18446744073709551615 := by decide +kernel
  refine ⟨?_, hordered 701 702 (by decide), hnames ⟨9, 26⟩ (by decide +kernel)⟩
  rw [← hindex]
  exact hwords _ ⟨by decide, by decide⟩

namespace Grid

variable {g : Grid} {token label : Text} {c : Cell}

/-- The token is the label of the cell's column with the number of the cell's row behind it, which may begin with
zeros. -/
def Names (g : Grid) (token : Text) (c : Cell) : Prop :=
  ∃ label k, g.headers[c.col]? = some label ∧ token = label ++ (List.replicate k '0' ++ Text.decimal (c.row + 1))

theorem Wf.column?_eq_some_iff (h : g.Wf) {k : Nat} : g.column? label = some k ↔ g.headers[k]? = some label := by
  rw [column?, List.idxOf?_eq_some_iff, List.getElem?_eq_some_iff]
  refine exists_congr fun hk => ⟨And.left, fun heq => ⟨heq, fun j hj hj' => ?_⟩⟩
  have hjk : j = k := (List.Nodup.getElem_inj_iff h.distinct).1 (hj'.trans heq.symm)
  omega

theorem locate?_iff_names (hwf : g.Wf) (hl : g.Lettered) :
    g.locate? token = some c ↔ g.Names token c ∧ g.contains c = true ∧ c.row < Token.maxRow := by
  rw [Formula.Setting.locate?_eq_some_iff]
  simp only [Token.split?_eq_some_iff, hwf.column?_eq_some_iff]
  constructor
  · rintro ⟨label, ⟨-, hrow, k, rfl⟩, hheader, hcontains⟩
    exact ⟨⟨label, k, hheader, rfl⟩, hcontains, hrow⟩
  · rintro ⟨⟨label, k, hheader, rfl⟩, hcontains, hrow⟩
    exact ⟨label, ⟨hl label (List.mem_of_getElem? hheader), hrow, k, rfl⟩, hheader, hcontains⟩

theorem Names.unique (hwf : g.Wf) (hl : g.Lettered) {d : Cell} (hc : g.Names token c) (hd : g.Names token d) :
    c = d := by
  obtain ⟨label, k, hlabel, rfl⟩ := hc
  obtain ⟨label', k', hlabel', heq⟩ := hd
  obtain ⟨hne, hdigits, hvalue⟩ := Text.eq_zeros_append_iff.2 ⟨k, rfl⟩
  obtain ⟨hne', hdigits', hvalue'⟩ := Text.eq_zeros_append_iff.2 ⟨k', rfl⟩
  obtain ⟨htake, hdrop⟩ := Token.cut (hl label (List.mem_of_getElem? hlabel)) hne hdigits
  obtain ⟨htake', hdrop'⟩ := Token.cut (hl label' (List.mem_of_getElem? hlabel')) hne' hdigits'
  rw [heq] at htake hdrop
  obtain rfl : label' = label := htake'.symm.trans htake
  have hrow : c.row + 1 = d.row + 1 := by rw [← hvalue, ← hvalue', ← hdrop, hdrop']
  have hcol : c.col = d.col := by
    rw [← hwf.column?_eq_some_iff] at hlabel hlabel'
    exact Option.some.inj (hlabel.symm.trans hlabel')
  exact congrArg₂ Cell.mk (Nat.succ.inj hrow) hcol

/-- Every cell has the name that has no zeros in front of the row. -/
theorem exists_names (h : g.contains c = true) : ∃ token, g.Names token c := by
  obtain ⟨label, hlabel⟩ : ∃ label, g.headers[c.col]? = some label :=
    ⟨_, List.getElem?_eq_getElem (contains_eq_true.1 h).2⟩
  exact ⟨_, label, 0, hlabel, rfl⟩

/-- After every history of edits a token finds exactly the cell of the grid that it names, if the row can be counted in
64 bits. So what it finds lies in the grid, and every cell is found by its names and by no other token. No two cells
have a name in common. -/
theorem locate?_after_edits (rows cols : Nat) (es : List Edit) :
    let g := (empty rows cols).edits es
    (∀ token c, g.locate? token = some c ↔ g.Names token c ∧ g.contains c = true ∧ c.row < Token.maxRow) ∧
    (∀ token c d, g.Names token c → g.Names token d → c = d) ∧
    ∀ c, g.contains c = true → c.row < Token.maxRow →
      (∀ token, g.locate? token = some c ↔ g.Names token c) ∧ ∃ token, g.locate? token = some c := by
  intro g
  have hwf : g.Wf := (wf_empty rows cols).edits es
  have hl : g.Lettered := (lettered_empty rows cols).edits es
  refine ⟨fun token c => locate?_iff_names hwf hl, fun token c d => Names.unique hwf hl, fun c hc hrow => ?_⟩
  have hnames : ∀ token, g.locate? token = some c ↔ g.Names token c := by
    intro token
    rw [locate?_iff_names hwf hl]
    exact ⟨And.left, fun h => ⟨h, hc, hrow⟩⟩
  obtain ⟨token, htoken⟩ := exists_names hc
  exact ⟨hnames, token, (hnames token).2 htoken⟩

/-- Of the columns `A`, `B` and `C` the first two are erased, and `B` comes back behind `C`. -/
theorem locate?_after_edits_reordered :
    let g := (empty 7 3).edits [.eraseColumn 0, .eraseColumn 0, .addColumn]
    g.headers = [['C'], ['B']] ∧ g.locate? "B007".toList = some ⟨6, 1⟩ := by
  intro g
  have hheaders : g.headers = [['C'], ['B']] := by decide +kernel
  have hcontains : g.contains ⟨6, 1⟩ = true := by decide +kernel
  have hrow : 6 < Token.maxRow := by decide
  have hname : g.Names "B007".toList ⟨6, 1⟩ := ⟨['B'], 2, by rw [hheaders]; rfl, by decide +kernel⟩
  exact ⟨hheaders, (((locate?_after_edits 7 3 _).2.2 ⟨6, 1⟩ hcontains hrow).1 _).2 hname⟩

end Grid

end Spreadsheet
