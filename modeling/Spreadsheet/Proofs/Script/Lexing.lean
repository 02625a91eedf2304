import Mathlib.Data.List.Basic
import Mathlib.Tactic.SplitIfs
import Spreadsheet.Script.Lexer

/-!
# What a lexeme looks at

A shape that ends within a text `x` looks at most at the beginning of what stands behind it. So it is the same where
something else stands behind `x`, unless it ends with `x` and would go on with what comes now. Each shape has one lemma
that says so.
-/

namespace Spreadsheet.Script.Token

open Text (isDigit isLetter isCapital)

variable {x y z a b : Text}

/-! ### Literals -/

section Closing

variable {close c : Char}

theorem closing_cons (hslash : c ≠ '\\') (hclose : c ≠ close) (t : Text) :
    closing close (c :: t) = (closing close t).map fun r => (c :: r.1, r.2) := by
  cases t with
  | nil => simp [closing, hclose]
  | cons d t =>
    rw [closing, if_neg fun h => h.elim hslash fun h => hclose h.1, if_neg hclose]

theorem closing_escape (c : Char) (t : Text) :
    closing close ('\\' :: c :: t) = (closing close t).map fun r => ('\\' :: c :: r.1, r.2) := by
  rw [closing, if_pos (.inl rfl)]

theorem closing_doubled (t : Text) :
    closing close (close :: close :: t) = (closing close t).map fun r => (close :: close :: r.1, r.2) := by
  rw [closing, if_pos (.inr ⟨rfl, rfl⟩)]

theorem closing_close (hslash : close ≠ '\\') (h : z.head? ≠ some close) : closing close (close :: z) = some ([], z) := by
  cases z with
  | nil => rw [closing, if_pos rfl]
  | cons d z =>
    have hd : d ≠ close := fun hd => h (congrArg some hd)
    rw [closing, if_neg fun h => h.elim hslash fun h => hd h.2, if_pos rfl]

theorem head?_of_closing {t : Text} (h : closing close t = some (a, b)) : b.head? ≠ some close := by
  fun_induction closing close t generalizing a with
  | case1 => cases h
  | case2 =>
    cases h
    simp
  | case3 => cases h
  | case4 _ _ _ _ ih | case6 _ _ _ _ _ ih =>
    obtain ⟨⟨a', b'⟩, hr, h⟩ := Option.map_eq_some_iff.1 h
    obtain ⟨-, rfl⟩ := Prod.mk.inj h
    exact ih hr
  | case5 d t hnot =>
    obtain ⟨-, rfl⟩ := Prod.mk.inj (Option.some.inj h)
    exact fun hd => hnot (.inr ⟨rfl, Option.some.inj hd⟩)

/-- A literal ends at the same mark whatever stands behind it, unless that is another mark. -/
theorem closing_append {t : Text} (hslash : close ≠ '\\') (h : closing close t = some (a, b))
    (hz : z.head? ≠ some close) : closing close (a ++ close :: z) = some (a, z) := by
  fun_induction closing close t generalizing a with
  | case1 => cases h
  | case2 =>
    cases h
    exact closing_close hslash hz
  | case3 => cases h
  | case4 c d t hcd ih =>
    obtain ⟨⟨a', b'⟩, hr, h⟩ := Option.map_eq_some_iff.1 h
    obtain ⟨rfl, rfl⟩ := Prod.mk.inj h
    rw [List.cons_append, List.cons_append, closing, if_pos hcd, ih hr]
    rfl
  | case5 d t _ =>
    obtain ⟨rfl, -⟩ := Prod.mk.inj (Option.some.inj h)
    exact closing_close hslash hz
  | case6 c d t hnot hc ih =>
    obtain ⟨⟨a', b'⟩, hr, h⟩ := Option.map_eq_some_iff.1 h
    obtain ⟨rfl, rfl⟩ := Prod.mk.inj h
    rw [List.cons_append, closing_cons (fun h => hnot (.inl h)) hc, ih hr]
    rfl

end Closing

/-! ### Symbols -/

section Munch

variable {known : Text → Bool} {p : Text}

theorem known_of_munch (h : munch known x y = (p, b)) : p = x ∨ known p = true := by
  induction y generalizing x with
  | nil =>
    cases h
    exact .inl rfl
  | cons c y ih =>
    rw [munch] at h
    split at h
    · next hc => exact .inr ((ih h).elim (fun hp => hp ▸ hc) id)
    · cases h
      exact .inl rfl

/-- A symbol goes on with characters that symbols go on with. -/
theorem mem_munch {P : Char → Prop} (hgoes : ∀ x c, known x = true → known (x ++ [c]) = true → P c)
    (hx : known x = true) : ∀ d ∈ (munch known x y).1, d ∈ x ∨ P d := by
  induction y generalizing x with
  | nil => exact fun d hd => .inl hd
  | cons c y ih =>
    intro d hd
    rw [munch] at hd
    split at hd
    · next hc =>
      rcases ih hc d hd with hd | hd
      · rcases List.mem_append.1 hd with hd | hd
        · exact .inl hd
        · exact .inr (List.mem_singleton.1 hd ▸ hgoes x c hx hc)
      · exact .inr hd
    · exact .inl hd

/-- A symbol ends in front of a character that it does not go on with. -/
theorem munch_stops (h : munch known x y = (p, b)) : ∀ c ∈ b.head?, known (p ++ [c]) = false := by
  induction y generalizing x with
  | nil =>
    cases h
    exact nofun
  | cons d y ih =>
    rw [munch] at h
    split at h
    · exact ih h
    · next hd =>
      cases h
      intro c hc
      obtain rfl := Option.some.inj hc
      exact Bool.eq_false_iff.2 hd

/-- A symbol is the same in front of anything that it does not go on with. -/
theorem munch_append_of_stops (h : munch known x (a ++ b) = (x ++ a, b))
    (hz : ∀ c ∈ z.head?, known (x ++ a ++ [c]) = false) : munch known x (a ++ z) = (x ++ a, z) := by
  induction a generalizing x with
  | nil =>
    cases z with
    | nil => simp [munch]
    | cons c z =>
      have hc := hz c rfl
      rw [List.append_nil] at hc
      rw [List.nil_append, munch, if_neg (by simp [hc]), List.append_nil]
  | cons d a ih =>
    rw [List.cons_append, munch] at h ⊢
    split at h
    · next hd =>
      rw [if_pos hd, ih (by rw [h]; simp) (by simpa using hz)]
      simp
    · have := congrArg (·.1.length) h
      simp at this

theorem munch_append_of_begins (hx : x ≠ []) (hy : ∀ c ∈ y.head?, ∀ p, p ≠ [] → known p = true → known (p ++ [c]) = true →
      ¬ p = x) : munch known [] (x ++ y) = ((munch known [] x).1, (munch known [] x).2 ++ y) := by
  obtain ⟨p, r, hp⟩ : ∃ p r, munch known [] x = (p, r) := ⟨_, _, rfl⟩
  have hsplit : p ++ r = x := by
    have := munch_append known [] x
    rwa [hp] at this
  rw [hp]
  have hread : munch known [] (p ++ r) = ([] ++ p, r) := by rw [hsplit, hp]; rfl
  rw [← hsplit, List.append_assoc]
  refine munch_append_of_stops (b := r) hread fun c hc => ?_
  cases r with
  | cons d r => exact munch_stops hp c hc
  | nil =>
    rw [List.append_nil] at hsplit
    subst hsplit
    rw [List.nil_append, Bool.eq_false_iff]
    exact fun hknown => hy c hc p hx ((known_of_munch hp).resolve_left hx) hknown rfl

/-- A symbol is found if every beginning of it is one and it does not go on. -/
theorem munch_of_prefixes (h : ∀ p, p <+: a → p ≠ [] → known (x ++ p) = true)
    (hz : ∀ c ∈ z.head?, known (x ++ a ++ [c]) = false) : munch known x (a ++ z) = (x ++ a, z) := by
  induction a generalizing x with
  | nil => exact munch_append_of_stops (b := []) (by rw [List.append_nil, List.append_nil, munch.eq_def]) hz
  | cons d a ih =>
    have hd : known (x ++ [d]) = true := h [d] ⟨a, rfl⟩ (List.cons_ne_nil _ _)
    rw [List.cons_append, munch, if_pos hd]
    have happend : x ++ d :: a = x ++ [d] ++ a := by simp
    rw [happend] at hz ⊢
    refine ih (fun p hp _ => ?_) hz
    rw [List.append_assoc]
    exact h (d :: p) (List.cons_prefix_cons.2 ⟨rfl, hp⟩) (List.cons_ne_nil _ _)

theorem symbolSpan_of_ne {s : Text} (h : ∀ t, s ≠ '!' :: 'i' :: 'n' :: t) : symbolSpan known s = munch known [] s :=
  symbolSpan.eq_2 known s h

end Munch

/-- Characters that the values in formulas begin with, and references as well. -/
def begins (c : Char) : Bool :=
  isDigit c || isCapital c || c == 't' || c == 'f' || c == '(' || c == '[' || c == '"'

theorem begins_of_isCapital {c : Char} (h : isCapital c = true) : begins c = true := by simp [begins, h]

/-- A symbol is the same in front of a value that it does not go on with. -/
theorem symbolSpan_append_of_begins {known : Text → Bool} {c : Char} (hc : x.getLast? = some c)
    (hname : isNameChar c = false) (hbegins : ∀ d ∈ y.head?, begins d = true)
    (hy : ∀ d ∈ y.head?, ∀ p, p ≠ [] → known p = true → known (p ++ [d]) = true → ¬ p = x) :
    symbolSpan known (x ++ y) = ((symbolSpan known x).1, (symbolSpan known x).2 ++ y) := by
  have hx : x ≠ [] := by
    rintro rfl
    cases hc
  by_cases hin : ∃ t, x = '!' :: 'i' :: 'n' :: t
  · obtain ⟨t, rfl⟩ := hin
    cases t with
    | nil =>
      obtain rfl := Option.some.inj hc
      exact absurd hname (by decide)
    | cons d t =>
      cases hd : isNameChar d <;> simp [symbolSpan, hd]
  · have hin' : ∀ t, x ++ y ≠ '!' :: 'i' :: 'n' :: t := by
      intro t ht
      match x with
      | [] => exact hx rfl
      | [d] =>
        have hy : y = 'i' :: 'n' :: t := (List.cons.inj ht).2
        exact absurd (hbegins 'i' (by rw [hy]; rfl)) (by decide)
      | [d, e] =>
        obtain rfl : e = c := Option.some.inj hc
        obtain rfl : e = 'i' := (List.cons.inj (List.cons.inj ht).2).1
        exact absurd hname (by decide)
      | d :: e :: f :: x =>
        simp only [List.cons_append, List.cons.injEq] at ht
        obtain ⟨rfl, rfl, rfl, -⟩ := ht
        exact hin ⟨x, rfl⟩
    rw [symbolSpan_of_ne hin', symbolSpan_of_ne fun t ht => hin ⟨t, ht⟩, munch_append_of_begins hx hy]

/-! ### Numbers -/

theorem takeWhile_append_of_last {p : Char → Bool} {c : Char} (hc : x.getLast? = some c) (hp : p c = false) :
    (x ++ y).takeWhile p = x.takeWhile p ∧ (x ++ y).dropWhile p = x.dropWhile p ++ y ∧
      (x.dropWhile p).getLast? = some c := by
  obtain ⟨w, rfl⟩ : ∃ w, x = w ++ [c] := List.getLast?_eq_some_iff.1 hc
  have hnil : ([c] : Text).takeWhile p = [] := by simp [hp]
  induction w with
  | nil => simp [hp]
  | cons d w ih =>
    have ih := ih (by simp)
    by_cases hd : p d = true
    · simpa [hd] using ih
    · simp [hd, List.getLast?_cons]

theorem isDigitRun_of_not_isNameChar {c : Char} (h : isNameChar c = false) : isDigitRun c = false := by
  simp only [isNameChar, isDigitRun, Bool.or_eq_false_iff] at h ⊢
  exact ⟨h.1.2, h.2⟩

theorem isDigit_of_not_isNameChar {c : Char} (h : isNameChar c = false) : isDigit c = false :=
  (Bool.or_eq_false_iff.1 (isDigitRun_of_not_isNameChar h)).1

/-- The digits at the start end in a point, and the text ends with it. -/
def EndsInPoint (x : Text) : Prop := x.dropWhile isDigitRun = ['.']

/-- The number at the start has the sign of an exponent at the end of the text, and digits are still to come. -/
def EndsInSign (x : Text) : Prop :=
  ∃ e s, (fraction (x.dropWhile isDigitRun)).2 = [e, s] ∧ (e = 'e' ∨ e = 'E') ∧ (s = '+' ∨ s = '-')

theorem isDigit_of_isLetter {c : Char} (h : isLetter c = true) : isDigit c = false := by
  simp only [isLetter, Text.isCapital, Bool.or_eq_true, Bool.and_eq_true, decide_eq_true_eq] at h
  simp only [isDigit, Bool.and_eq_false_iff, decide_eq_false_iff_not]
  rcases h with h | h
  · exact .inr fun h' => absurd (Char.le_trans h.1 h') (by decide)
  · exact .inr fun h' => absurd (Char.le_trans h.1 h') (by decide)

theorem isNameChar_of_startsWord {c : Char} (h : (isLetter c || c == '_') = true) : isNameChar c = true := by
  rcases Bool.or_eq_true_iff.1 h with h | h <;> simp [isNameChar, h]

theorem isDigit_of_startsWord {c : Char} (h : (isLetter c || c == '_') = true) : isDigit c = false := by
  rcases Bool.or_eq_true_iff.1 h with h | h
  · exact isDigit_of_isLetter h
  · obtain rfl := beq_iff_eq.1 h
    rfl

theorem fraction_of_ne {d : Char} (h : d ≠ '.') (t : Text) : fraction (d :: t) = (none, d :: t) :=
  fraction.eq_2 _ fun _ _ ht => h (List.cons.inj ht).1

theorem fraction_of_isLetter {d : Char} (h : isLetter d = true) (t : Text) :
    fraction ('.' :: d :: t) = (none, '.' :: d :: t) := by
  rw [fraction, isDigit_of_isLetter h, if_neg Bool.false_ne_true, if_pos (by simp [h])]

theorem getLast?_of_cons {c d e : Char} (h : (d :: e :: x).getLast? = some c) : (e :: x).getLast? = some c := by
  rwa [List.getLast?_cons_cons] at h

theorem fraction_append {c : Char} (hc : x.getLast? = some c) (hname : isNameChar c = false)
    (hpoint : x = ['.'] → ∀ d ∈ y.head?, isLetter d = true) :
    fraction (x ++ y) = ((fraction x).1, (fraction x).2 ++ y) ∧ (fraction x).2.getLast? = some c := by
  match x with
  | [] => cases hc
  | [d] =>
    by_cases hd : d = '.'
    · subst hd
      refine ⟨?_, hc⟩
      cases y with
      | nil => rfl
      | cons e y => exact fraction_of_isLetter (hpoint rfl e rfl) y
    · rw [List.singleton_append, fraction_of_ne hd, fraction_of_ne hd]
      exact ⟨rfl, hc⟩
  | d :: e :: x =>
    by_cases hd : d = '.'
    · subst hd
      rw [List.cons_append, List.cons_append, fraction, fraction]
      have hlast := getLast?_of_cons hc
      by_cases he : isDigit e = true
      · rw [if_pos he, if_pos he]
        have hx : x.getLast? = some c := by
          cases x with
          | nil =>
            obtain rfl := Option.some.inj hlast
            simp [isNameChar, he] at hname
          | cons f x => exact getLast?_of_cons hlast
        obtain ⟨htake, hdrop, hlast'⟩ := takeWhile_append_of_last (y := y) hx (isDigitRun_of_not_isNameChar hname)
        rw [htake, hdrop]
        exact ⟨rfl, hlast'⟩
      · rw [if_neg he, if_neg he]
        split
        · exact ⟨rfl, hc⟩
        · exact ⟨rfl, hlast⟩
    · rw [List.cons_append, fraction_of_ne hd, fraction_of_ne hd]
      exact ⟨rfl, hc⟩

theorem exponent_of_not {e d : Char} (h : ¬((e = 'e' ∨ e = 'E') ∧ (isDigit d = true ∨ d = '+' ∨ d = '-'))) (t : Text) :
    exponent (e :: d :: t) = (none, e :: d :: t) := by
  rw [exponent, if_neg h]

theorem exponent_append {c : Char} (hc : x.getLast? = some c) (hname : isNameChar c = false)
    (hy : ∃ d ∈ y.head?, begins d = true)
    (hsign : ∀ e s, x = [e, s] → (e = 'e' ∨ e = 'E') → (s = '+' ∨ s = '-') → ∀ d ∈ y.head?, isDigit d = false) :
    exponent (x ++ y) = ((exponent x).1, (exponent x).2 ++ y) := by
  obtain ⟨d, hd, hbegins⟩ := hy
  obtain ⟨y, rfl⟩ := List.head?_eq_some_iff.1 hd
  match x with
  | [] => cases hc
  | [e] =>
    obtain rfl := Option.some.inj hc
    refine exponent_of_not (fun h => ?_) y
    rcases h.1 with rfl | rfl <;> exact absurd hname (by decide)
  | [e, s] =>
    obtain rfl : s = c := Option.some.inj hc
    by_cases h : (e = 'e' ∨ e = 'E') ∧ (isDigit s = true ∨ s = '+' ∨ s = '-')
    · have hs : s = '+' ∨ s = '-' := h.2.resolve_left fun hs => by simp [isNameChar, hs] at hname
      have hrun : isDigitRun d = false := by
        have hdigit := hsign e s rfl h.1 hs d rfl
        have hne : d ≠ '_' := Text.ne_of_kind hbegins rfl
        simp [isDigitRun, hdigit, hne]
      rw [List.cons_append, List.cons_append, List.nil_append, exponent, exponent, if_pos h, if_pos h]
      simp [hrun]
    · rw [List.cons_append, List.cons_append, exponent_of_not h, exponent_of_not h]
      rfl
  | e :: s :: f :: x =>
    have hlast := getLast?_of_cons (getLast?_of_cons hc)
    obtain ⟨htake, hdrop, -⟩ := takeWhile_append_of_last (y := d :: y) hlast (isDigitRun_of_not_isNameChar hname)
    rw [List.cons_append, List.cons_append, exponent, exponent, htake, hdrop]
    split <;> rfl

theorem isLetter_of_base? {c : Char} {base : Nat} (h : base? c = some base) : isLetter c = true := by
  unfold base? at h
  split_ifs at h with h16 h8 h2
  · rcases h16 with rfl | rfl <;> decide
  · rcases h8 with rfl | rfl <;> decide
  · rcases h2 with rfl | rfl <;> decide

theorem base?_of_not_isNameChar {c : Char} (h : isNameChar c = false) : base? c = none := by
  refine Option.eq_none_iff_forall_ne_some.2 fun base hbase => ?_
  simp [isNameChar, isLetter_of_base? hbase] at h

theorem not_underscore {c : Char} (h : isNameChar c = false) : (c == '_') = false :=
  beq_eq_false_iff_ne.2 fun hc => by cases hc ▸ h

theorem announced?_of_ne {d : Char} (h : d ≠ '0') (t : Text) : announced? (d :: t) = none :=
  announced?.eq_2 _ fun _ ht => h (List.cons.inj ht).1

theorem announced?_append {c : Char} (hc : x.getLast? = some c) (hname : isNameChar c = false) :
    announced? (x ++ y) = (announced? x).map (fun r => (r.1, r.2 ++ y)) ∧
      ∀ r ∈ announced? x, r.2.getLast? = some c := by
  cases x with
  | nil => cases hc
  | cons d x =>
    by_cases hd : d = '0'
    · subst hd
      have hx : x.getLast? = some c := by
        cases x with
        | nil =>
          obtain rfl := Option.some.inj hc
          exact absurd hname (by decide)
        | cons e x => exact getLast?_of_cons hc
      obtain ⟨-, hdrop, hlast⟩ := takeWhile_append_of_last (p := (· == '_')) (y := y) hx (not_underscore hname)
      rw [List.cons_append, announced?, announced?, hdrop]
      cases hrest : x.dropWhile (· == '_') with
      | nil =>
        rw [hrest] at hlast
        cases hlast
      | cons b u =>
        rw [hrest] at hlast
        dsimp only [List.cons_append]
        cases hbase : base? b with
        | none => exact ⟨rfl, nofun⟩
        | some base =>
          refine ⟨rfl, fun r hr => ?_⟩
          obtain rfl := Option.some.inj hr
          cases u with
          | nil =>
            obtain rfl : b = c := Option.some.inj hlast
            rw [base?_of_not_isNameChar hname] at hbase
            cases hbase
          | cons e u => exact getLast?_of_cons hlast
    · rw [List.cons_append, announced?_of_ne hd, announced?_of_ne hd]
      exact ⟨rfl, nofun⟩

theorem hexDigit?_of_not_isNameChar {c : Char} (h : isNameChar c = false) : Text.hexDigit? c = none := by
  simp only [isNameChar, isLetter, Text.isCapital, Bool.or_eq_false_iff] at h
  obtain ⟨⟨⟨hcapital, hsmall⟩, hdigit⟩, -⟩ := h
  have hlow : ('a' ≤ c && c ≤ 'f') = false := by
    rw [Bool.eq_false_iff, ne_eq, Bool.and_eq_true, decide_eq_true_eq, decide_eq_true_eq]
    intro hc
    simp [hc.1, Char.le_trans hc.2 (by decide : 'f' ≤ 'z')] at hsmall
  have hhigh : ('A' ≤ c && c ≤ 'F') = false := by
    rw [Bool.eq_false_iff, ne_eq, Bool.and_eq_true, decide_eq_true_eq, decide_eq_true_eq]
    intro hc
    simp [hc.1, Char.le_trans hc.2 (by decide : 'F' ≤ 'Z')] at hcapital
  simp [Text.hexDigit?, hdigit, hlow, hhigh]

theorem isBaseRun_of_not_isNameChar {c : Char} (h : isNameChar c = false) (base : Nat) : isBaseRun base c = false := by
  unfold isBaseRun
  split
  · rw [hexDigit?_of_not_isNameChar h, not_underscore h]
    rfl
  · exact isDigitRun_of_not_isNameChar h

theorem spelled_append {c : Char} (hc : x.getLast? = some c) (hname : isNameChar c = false)
    (hy : ∃ d ∈ y.head?, begins d = true) (hpoint : EndsInPoint x → ∀ d ∈ y.head?, isLetter d = true)
    (hsign : EndsInSign x → ∀ d ∈ y.head?, isDigit d = false) :
    spelled (x ++ y) = ((spelled x).1, (spelled x).2 ++ y) := by
  obtain ⟨hannounced, hlast⟩ := announced?_append (y := y) hc hname
  rw [spelled, spelled, hannounced]
  cases ha : announced? x with
  | none =>
    obtain ⟨htake, hdrop, hlast⟩ := takeWhile_append_of_last (y := y) hc (isDigitRun_of_not_isNameChar hname)
    obtain ⟨hfraction, hlast'⟩ := fraction_append (y := y) hlast hname hpoint
    have hexponent := exponent_append (y := y) hlast' hname hy fun e s hes he hs => hsign ⟨e, s, hes, he, hs⟩
    dsimp only [Option.map_none]
    rw [htake, hdrop, hfraction, hexponent]
  | some r =>
    obtain ⟨htake, hdrop, -⟩ :=
      takeWhile_append_of_last (y := y) (hlast r ha) (isBaseRun_of_not_isNameChar hname r.1)
    dsimp only [Option.map_some]
    rw [htake, hdrop]

/-! ### What goes on -/

/-- The text behind a number that is still open at its end goes on with it. -/
def NumberJoins (x y : Text) : Prop :=
  (∃ d ∈ x.head?, isDigit d = true) ∧
    ((EndsInPoint x ∧ ∃ d ∈ y.head?, isLetter d = false) ∨ (EndsInSign x ∧ ∃ d ∈ y.head?, isDigit d = true))

/-- The text behind a number that is still open, behind a minus sign of a number, behind a question mark or behind a hash
goes on with it. -/
def Joins (operand : Bool) (x y : Text) : Prop :=
  NumberJoins x y ∨
    (operand = true ∧ ∃ t, x = '-' :: t ∧ (NumberJoins t y ∨ (t = [] ∧ ∃ d ∈ y.head?, isDigit d = true))) ∨
    (x = ['?'] ∧ y.head? = some '[') ∨ (x = ['#'] ∧ y.head? = some '"')

theorem spelled_append_of_not_joins {c : Char} (hc : x.getLast? = some c) (hname : isNameChar c = false)
    (hdigit : ∃ d ∈ x.head?, isDigit d = true) (hy : ∃ d ∈ y.head?, begins d = true) (hjoins : ¬ NumberJoins x y) :
    spelled (x ++ y) = ((spelled x).1, (spelled x).2 ++ y) := by
  refine spelled_append hc hname hy (fun hpoint d hd => ?_) fun hsign d hd => ?_
  · rw [← Bool.not_eq_false]
    exact fun hletter => hjoins ⟨hdigit, .inl ⟨hpoint, d, hd, hletter⟩⟩
  · rw [← Bool.not_eq_true]
    exact fun hdigit' => hjoins ⟨hdigit, .inr ⟨hsign, d, hd, hdigit'⟩⟩

/-! ### Comments -/

/-- The text begins a comment. -/
def BeginsComment (x : Text) : Prop := ∃ t, x = '/' :: '/' :: t ∨ x = '/' :: '*' :: t

theorem beginsComment_append (hx : x ≠ []) (hy : ∃ d ∈ y.head?, begins d = true) :
    BeginsComment (x ++ y) ↔ BeginsComment x := by
  obtain ⟨d, hd, hbegins⟩ := hy
  obtain ⟨y, rfl⟩ := List.head?_eq_some_iff.1 hd
  match x with
  | [e] =>
    constructor
    · rintro ⟨t, ht | ht⟩
      all_goals
        obtain ⟨-, ht⟩ := List.cons.inj ht
        obtain ⟨rfl, -⟩ := List.cons.inj ht
        exact absurd hbegins (by decide)
    · rintro ⟨t, ht | ht⟩ <;> cases ht
  | e :: f :: x =>
    have hiff : ∀ w : Text, BeginsComment (e :: f :: w) ↔ e = '/' ∧ (f = '/' ∨ f = '*') := by
      intro w
      simp only [BeginsComment, List.cons.injEq]
      constructor
      · rintro ⟨t, ⟨he, hf, -⟩ | ⟨he, hf, -⟩⟩
        · exact ⟨he, .inl hf⟩
        · exact ⟨he, .inr hf⟩
      · rintro ⟨he, hf | hf⟩
        · exact ⟨w, .inl ⟨he, hf, rfl⟩⟩
        · exact ⟨w, .inr ⟨he, hf, rfl⟩⟩
    exact (hiff _).trans (hiff _).symm

/-- Characters that quote texts or characters, or may do so. -/
def quotes (c : Char) : Bool := c == '"' || c == '\x60' || c == '\x27' || c == '#'

theorem ne_of_not_quotes {c : Char} (h : quotes c = false) : c ≠ '"' := by
  rintro rfl
  cases h

theorem not_beginsComment_of_ne {c : Char} {t : Text} (h : c ≠ '/') : ¬ BeginsComment (c :: t) := by
  rintro ⟨u, hu | hu⟩ <;> exact h (List.cons.inj hu).1

end Spreadsheet.Script.Token
