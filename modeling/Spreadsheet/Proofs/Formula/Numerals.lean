import Spreadsheet.Proofs.Formula.Literals
import Spreadsheet.Proofs.Formula.Promotion
import Spreadsheet.Proofs.Formula.Variadic

/-!
# Numerals of a promoted script

Promotion looks at the characters around a run of digits, while a number goes on over points, exponents and their
signs. Digits that touch neither a name nor a point (`Alone`) become a float, also behind the sign of an exponent, where
they are no number of their own (`exponent_of_alone`). Every other number is spelled as it was (`spelled_promoteRest`),
so `promotedNumber` says what the tokens of a number become (`readsAs_number`).
-/

namespace Spreadsheet.Formula

open Script Script.Token
open Text (isDigit isIdent isLetter)

variable {g : Bool} {c : Char} {s t x y z : Text}

/-! ### Readers in front of promoted text -/

theorem glues_of_base? {base : Nat} (h : base? c = some base) : glues c = true :=
  glues_of_isNameChar (by simp [isNameChar, isLetter_of_base? h])

theorem isNameChar_of_isDigitRun (h : isDigitRun c = true) : isNameChar c = true := by
  simp only [isDigitRun, Bool.or_eq_true] at h
  rcases h with h | h <;> simp [isNameChar, h]

theorem isNameChar_of_isBaseRun {base : Nat} (h : isBaseRun base c = true) : isNameChar c = true := by
  by_contra hname
  rw [isBaseRun_of_not_isNameChar (Bool.eq_false_iff.2 hname)] at h
  cases h

/-- Of what a text begins with, promotion only changes `^`. -/
theorem not_head?_promoteRest {p : Char → Bool} (hp : p '*' = false) (h : ∀ c ∈ y.head?, p c = false) (g : Bool) :
    ∀ c ∈ (promoteRest g y).head?, p c = false := by
  intro c hc
  rw [head?_promoteRest] at hc
  obtain ⟨d, hd, rfl⟩ := Option.map_eq_some_iff.1 hc
  split
  · exact hp
  · exact h d hd

theorem head?_promoteRest_ne {d : Char} (hd : d ≠ '*') (h : y.head? ≠ some d) (g : Bool) :
    (promoteRest g y).head? ≠ some d := by
  intro hhead
  have hne : ∀ c ∈ y.head?, (c == d) = false := fun c hc => beq_eq_false_iff_ne.2 fun hcd => h (hcd ▸ hc)
  have := not_head?_promoteRest (p := (· == d)) (beq_eq_false_iff_ne.2 (Ne.symm hd)) hne g d hhead
  simp at this

theorem span_promoteRest {p : Char → Bool} (hp : ∀ c, p c = true → glues c = true) (t : Text) :
    (promoteRest true t).takeWhile p = t.takeWhile p ∧
      (promoteRest true t).dropWhile p = promoteRest true (t.dropWhile p) := by
  have hstar : p '*' = false := Bool.eq_false_iff.2 fun h => absurd (hp _ h) (by decide)
  have hread := Text.takeWhile_append_of_head? (p := p) (t := t.takeWhile p) (fun c => List.mem_takeWhile_imp)
    (not_head?_promoteRest hstar (Text.head?_dropWhile t) true)
  rwa [← promoteRest_true_append fun c hc => hp c (List.mem_takeWhile_imp hc), List.takeWhile_append_dropWhile] at hread

theorem span_isDigitRun (t : Text) :
    (promoteRest true t).takeWhile isDigitRun = t.takeWhile isDigitRun ∧
      (promoteRest true t).dropWhile isDigitRun = promoteRest true (t.dropWhile isDigitRun) :=
  span_promoteRest (fun _ h => glues_of_isNameChar (isNameChar_of_isDigitRun h)) t

theorem span_isBaseRun (base : Nat) (t : Text) :
    (promoteRest true t).takeWhile (isBaseRun base) = t.takeWhile (isBaseRun base) ∧
      (promoteRest true t).dropWhile (isBaseRun base) = promoteRest true (t.dropWhile (isBaseRun base)) :=
  span_promoteRest (fun _ h => glues_of_isNameChar (isNameChar_of_isBaseRun h)) t

theorem announced?_promoteRest (t : Text) :
    announced? (promoteRest true t) = (announced? t).map fun r => (r.1, promoteRest true r.2) := by
  by_cases hzero : ∃ u, t = '0' :: u
  · obtain ⟨u, rfl⟩ := hzero
    obtain ⟨-, hdrop⟩ := span_promoteRest (p := (· == '_')) (fun c hc => by rw [beq_iff_eq.1 hc]; rfl) u
    rw [promoteRest_true_cons rfl, announced?, announced?, hdrop]
    cases u.dropWhile (· == '_') with
    | nil =>
      rw [promoteRest_nil]
      rfl
    | cons b v =>
      cases hb : base? b with
      | some base =>
        rw [promoteRest_true_cons (glues_of_base? hb)]
        simp [hb]
      | none =>
        have hhead := not_head?_promoteRest (p := fun c => (base? c).isSome) (y := b :: v) rfl
          (fun c hc => by rw [← Option.some.inj hc, hb]; rfl) true
        cases hrest : promoteRest true (b :: v) with
        | nil => simp [hb]
        | cons d w =>
          have hd : base? d = none := by simpa using hhead d (by rw [hrest]; rfl)
          simp [hb, hd]
  · have hnone : ∀ y : Text, y.head? ≠ some '0' → announced? y = none := fun y hy =>
      announced?.eq_2 _ fun u hu => hy (by rw [hu]; rfl)
    have hhead : t.head? ≠ some '0' := fun h => hzero (List.head?_eq_some_iff.1 h)
    rw [hnone _ (head?_promoteRest_ne (by decide) hhead true), hnone _ hhead]
    rfl

theorem fraction_of_head? (h : t.head? ≠ some '.') : fraction t = (none, t) :=
  fraction.eq_2 _ fun c u hu => h (by rw [hu]; rfl)

theorem fraction_of_point (h : isDigit c = false ∧ (isLetter c || c == '_' || c == '.') = false) :
    fraction ('.' :: c :: t) = (some ['0'], c :: t) := by
  rw [fraction, if_neg (Bool.eq_false_iff.1 h.1), if_neg (Bool.eq_false_iff.1 h.2)]

theorem fraction_promoteRest (t : Text) :
    fraction (promoteRest true t) = ((fraction t).1, promoteRest true (fraction t).2) := by
  by_cases hpoint : t.head? = some '.'
  · obtain ⟨u, rfl⟩ := List.head?_eq_some_iff.1 hpoint
    rw [promoteRest_true_cons rfl]
    cases u with
    | nil =>
      rw [promoteRest_nil, fraction, promoteRest_true_cons rfl, promoteRest_nil]
      · intro c u hu
        cases hu
    | cons d v =>
      by_cases hd : isDigit d = true
      · obtain ⟨htake, hdrop⟩ := span_isDigitRun v
        rw [promoteRest_true_cons (glues_of_isDigit hd), fraction, fraction, if_pos hd, if_pos hd, htake, hdrop]
      by_cases hname : (isLetter d || d == '_' || d == '.') = true
      · have hglues : glues d = true := by
          simp only [Bool.or_eq_true] at hname
          rcases hname with (hname | hname) | hname <;> simp [glues, isIdent, hname]
        rw [promoteRest_true_cons hglues, fraction, fraction, if_neg hd, if_neg hd, if_pos hname, if_pos hname,
          promoteRest_true_cons rfl, promoteRest_true_cons hglues]
      · have hother : isDigit d = false ∧ (isLetter d || d == '_' || d == '.') = false :=
          ⟨Bool.eq_false_iff.2 hd, Bool.eq_false_iff.2 hname⟩
        have hhead := not_head?_promoteRest (y := d :: v)
          (p := fun c => isDigit c || (isLetter c || c == '_' || c == '.')) rfl
          (fun c hc => Option.some.inj hc ▸ Bool.or_eq_false_iff.2 hother) true
        rw [fraction_of_point hother]
        cases hrest : promoteRest true (d :: v) with
        | nil =>
          have := head?_promoteRest true (d :: v)
          rw [hrest] at this
          cases this
        | cons e w => exact fraction_of_point (Bool.or_eq_false_iff.1 (hhead e (by rw [hrest]; rfl)))
  · rw [fraction_of_head? hpoint, fraction_of_head? (head?_promoteRest_ne (by decide) hpoint true)]

/-- A promoted text begins with what the text begins with, if that is no star. -/
theorem exists_of_promoteRest_cons {w : Text} (hc : c ≠ '*') (h : promoteRest g t = c :: w) : ∃ u, t = c :: u := by
  have hhead := head?_promoteRest g t
  rw [h] at hhead
  obtain ⟨d, hd, hdc⟩ := Option.map_eq_some_iff.1 hhead.symm
  split at hdc
  · exact absurd hdc.symm hc
  · exact hdc ▸ List.head?_eq_some_iff.1 hd

/-! ### Digits that stand alone -/

/-- Digits in front of the second text touch neither a name nor a point. -/
structure Alone (g : Bool) (x y : Text) : Prop where
  free : g = false
  ne : x ≠ []
  digit : ∀ c ∈ x, isDigit c = true
  ends : ∀ c ∈ y.head?, glues c = false

theorem ends_of_any (h : y.head?.any glues = false) : ∀ c ∈ y.head?, glues c = false := fun c hc => by
  rwa [Option.mem_def.1 hc] at h

theorem Alone.any (h : Alone g x y) : y.head?.any glues = false := by
  cases y with
  | nil => rfl
  | cons c y => exact h.ends c rfl

theorem Alone.name (h : Alone g x y) : ∀ c ∈ y.head?, isNameChar c = false := fun c hc =>
  Bool.eq_false_iff.2 fun hname => Bool.eq_false_iff.1 (h.ends c hc) (glues_of_isNameChar hname)

theorem Alone.run (h : Alone g x y) : ∀ c ∈ y.head?, isDigitRun c = false := fun c hc =>
  isDigitRun_of_not_isNameChar (h.name c hc)

theorem Alone.promoteRest (h : Alone g x y) :
    promoteRest g (x ++ y) = x ++ '.' :: '0' :: Formula.promoteRest true y := by
  have hdigit : ∀ c ∈ y.head?, isDigit c = false := fun c hc =>
    Bool.eq_false_iff.2 fun hd => Bool.eq_false_iff.1 (h.ends c hc) (glues_of_isDigit hd)
  rw [promoteRest_digits h.ne h.digit hdigit, h.any, h.free]
  simp

theorem promoteRest_of_not_alone (h : ∀ x y, t = x ++ y → ¬ Alone g x y) : promoteRest g t = promoteRest true t := by
  cases t with
  | nil => rw [promoteRest_nil, promoteRest_nil]
  | cons c t =>
    cases hc : isDigit c with
    | false => exact promoteRest_glued g true fun d hd => Option.some.inj hd ▸ hc
    | true =>
      have hx : ∀ d ∈ c :: t.takeWhile isDigit, isDigit d = true :=
        List.forall_mem_cons.2 ⟨hc, fun d => List.mem_takeWhile_imp⟩
      have hsplit := Text.cons_eq_append_dropWhile isDigit c t
      have hnot : (!g && !(t.dropWhile isDigit).head?.any glues) = false := by
        by_contra hnot
        obtain ⟨hg, hnext⟩ : g = false ∧ (t.dropWhile isDigit).head?.any glues = false := by simpa using hnot
        exact h _ _ hsplit ⟨hg, List.cons_ne_nil _ _, hx, ends_of_any hnext⟩
      rw [hsplit, promoteRest_digits (List.cons_ne_nil _ _) hx (Text.head?_dropWhile t), hnot,
        promoteRest_digits (List.cons_ne_nil _ _) hx (Text.head?_dropWhile t)]
      rfl

/-! ### Exponents -/

/-- A letter in front of an exponent. -/
def isPower (c : Char) : Prop := c = 'e' ∨ c = 'E'

/-- A sign in front of the digits of an exponent. -/
def isSign (c : Char) : Prop := c = '+' ∨ c = '-'

theorem glues_of_isPower (h : isPower c) : glues c = true := by
  rcases h with rfl | rfl <;> rfl

theorem exponent_eq_none (h : ∀ e d u, t = e :: d :: u → isPower e → isDigit d = true ∨ isSign d → False) :
    exponent t = (none, t) := by
  match t with
  | [] => rfl
  | [c] => rfl
  | e :: d :: u => exact exponent_of_not (fun hed => h e d u rfl hed.1 hed.2) u

theorem exponent_eq_some {e d : Char} (he : isPower e) (hd : isDigit d = true ∨ isSign d) (u : Text) :
    exponent (e :: d :: u) = (some (e :: d :: plain (u.takeWhile isDigitRun)), u.dropWhile isDigitRun) := by
  rw [exponent, if_pos ⟨he, hd⟩]

theorem promoteRest_sign {e d : Char} (he : isPower e) (hd : isSign d) (u : Text) :
    promoteRest true (e :: d :: u) = e :: d :: promoteRest false u := by
  rw [promoteRest_true_cons (glues_of_isPower he)]
  rcases hd with rfl | rfl <;> rw [promoteRest_cons rfl (by decide) (by decide)] <;> rfl

/-- Digits that stand alone behind the sign of an exponent are taken for a whole number. -/
theorem exponent_of_alone {e d : Char} (he : isPower e) (hd : isSign d) (h : Alone false x y) :
    exponent (e :: d :: (x ++ y)) = (some (e :: d :: x), y) ∧
      exponent (promoteRest true (e :: d :: (x ++ y))) = (some (e :: d :: x), '.' :: '0' :: promoteRest true y) := by
  have hread := takeWhile_digits h.digit h.run
  have hread' := takeWhile_digits (z := '.' :: '0' :: promoteRest true y) h.digit fun c hc => Option.some.inj hc ▸ rfl
  rw [promoteRest_sign he hd, h.promoteRest, exponent_eq_some he (.inr hd), exponent_eq_some he (.inr hd), hread.1,
    hread.2, hread'.1, hread'.2, plain_of_digits h.digit]
  exact ⟨rfl, rfl⟩

theorem exponent_promoteRest
    (h : ∀ e d x y, t = e :: d :: (x ++ y) → isPower e → isSign d → ¬ Alone false x y) :
    exponent (promoteRest true t) = ((exponent t).1, promoteRest true (exponent t).2) := by
  by_cases hexponent : ∃ e d u, t = e :: d :: u ∧ isPower e ∧ (isDigit d = true ∨ isSign d)
  · obtain ⟨e, d, u, rfl, he, hd⟩ := hexponent
    have hrest : promoteRest true (e :: d :: u) = e :: d :: promoteRest true u := by
      rcases hd with hd | hd
      · rw [promoteRest_true_cons (glues_of_isPower he), promoteRest_true_cons (glues_of_isDigit hd)]
      · rw [promoteRest_sign he hd, promoteRest_of_not_alone fun x y hu => h e d x y (by rw [hu]) he hd]
    obtain ⟨htake, hdrop⟩ := span_isDigitRun u
    rw [hrest, exponent_eq_some he hd, exponent_eq_some he hd, htake, hdrop]
  · rw [exponent_eq_none fun e d u ht he hd => hexponent ⟨e, d, u, ht, he, hd⟩]
    refine exponent_eq_none fun e d u ht he hd => hexponent ?_
    have hne : e ≠ '*' ∧ d ≠ '*' := by
      constructor
      · rintro rfl
        rcases he with he | he <;> cases he
      · rintro rfl
        rcases hd with hd | hd | hd <;> cases hd
    obtain ⟨t, rfl⟩ := exists_of_promoteRest_cons hne.1 ht
    rw [promoteRest_true_cons (glues_of_isPower he)] at ht
    obtain ⟨t, rfl⟩ := exists_of_promoteRest_cons hne.2 (List.cons.inj ht).2
    exact ⟨e, d, t, rfl, he, hd⟩

/-! ### Spellings -/

/-- The text ends in digits behind the sign of an exponent. -/
def endsInSigned (x : Text) : Bool :=
  x.getLast?.any isDigit && match x.reverse.dropWhile isDigit with
    | d :: e :: _ => (d == '+' || d == '-') && (e == 'e' || e == 'E')
    | _ => false

theorem not_isSign_of_glues (h : glues c = true) : ¬ isSign c := by
  rintro (rfl | rfl) <;> exact absurd h (by decide)

theorem endsInSigned_of_glues (h : ∀ c ∈ x, glues c = true) : endsInSigned x = false := by
  refine Bool.and_eq_false_iff.2 (.inr ?_)
  split
  · next d e r hrest =>
    have hmem : d ∈ x := by
      rw [← List.mem_reverse]
      exact (List.dropWhile_sublist isDigit).mem (by rw [hrest]; simp)
    have := not_isSign_of_glues (h d hmem)
    simp only [isSign, not_or] at this
    simp [this]
  · rfl

theorem endsInSigned_signed {e d : Char} (he : isPower e) (hd : isSign d) (w : Text) {u : Text}
    (hu : ∀ c ∈ u, isDigitRun c = true) : endsInSigned (w ++ e :: d :: u) = true ↔ u ≠ [] ∧ ∀ c ∈ u, isDigit c = true := by
  have hreverse : (w ++ e :: d :: u).reverse = u.reverse ++ d :: e :: w.reverse := by simp
  have hstop : isDigit d = false := by rcases hd with rfl | rfl <;> rfl
  rw [endsInSigned, hreverse, Bool.and_eq_true]
  by_cases hall : ∀ c ∈ u, isDigit c = true
  · have hdigits : ∀ c ∈ u.reverse, isDigit c = true := by simpa using hall
    have hmatch : (match (u.reverse ++ d :: e :: w.reverse).dropWhile isDigit with
        | d :: e :: _ => (d == '+' || d == '-') && (e == 'e' || e == 'E')
        | _ => false) = true := by
      rw [List.dropWhile_append_of_pos hdigits, List.dropWhile_cons_of_neg (Bool.eq_false_iff.1 hstop)]
      rcases he with rfl | rfl <;> rcases hd with rfl | rfl <;> rfl
    refine (and_iff_left hmatch).trans ⟨fun hlast => ⟨?_, hall⟩, fun ⟨hne, _⟩ => ?_⟩
    · rintro rfl
      simp [hstop] at hlast
    · obtain ⟨v, c, rfl⟩ := (List.eq_nil_or_concat' u).resolve_left hne
      have hc := hall c (by simp)
      have hlast : (w ++ e :: d :: (v ++ [c])).getLast? = some c := by
        rw [← List.cons_append, ← List.cons_append, ← List.append_assoc, List.getLast?_concat]
      rw [hlast]
      exact hc
  · -- the last character that is no digit is an underscore
    refine iff_of_false (fun h => ?_) fun h => hall h.2
    cases hrest : u.reverse.dropWhile isDigit with
    | nil =>
      rw [List.dropWhile_eq_nil_iff] at hrest
      exact hall fun c hc => hrest c (List.mem_reverse.2 hc)
    | cons c r =>
      have hc : isDigit c = false := Text.head?_dropWhile u.reverse c (by rw [hrest]; rfl)
      have hmem : c ∈ u := by
        rw [← List.mem_reverse]
        exact (List.dropWhile_sublist isDigit).mem (by rw [hrest]; simp)
      have hsign := not_isSign_of_glues (glues_of_isNameChar (isNameChar_of_isDigitRun (hu c hmem)))
      rw [isSign, not_or] at hsign
      have hdrop : (u.reverse ++ d :: e :: w.reverse).dropWhile isDigit = c :: (r ++ d :: e :: w.reverse) := by
        rw [List.dropWhile_append, hrest]
        rfl
      rw [hdrop] at h
      cases r <;> simp [hsign] at h

theorem fraction_split (t : Text) : ∃ x, t = x ++ (fraction t).2 ∧ ∀ c ∈ x, glues c = true := by
  match t with
  | [] => exact ⟨[], rfl, nofun⟩
  | [c] => exact ⟨[], (congrArg Prod.snd (fraction.eq_2 [c] fun _ _ h => by cases h)).symm, nofun⟩
  | c :: d :: u =>
    by_cases hc : c = '.'
    · subst hc
      rw [fraction]
      split_ifs with hd hname
      · refine ⟨'.' :: d :: u.takeWhile isDigitRun, ?_, ?_⟩
        · rw [List.cons_append, List.cons_append, List.takeWhile_append_dropWhile]
        · refine List.forall_mem_cons.2 ⟨rfl, List.forall_mem_cons.2 ⟨glues_of_isDigit hd, fun e he => ?_⟩⟩
          exact glues_of_isNameChar (isNameChar_of_isDigitRun (List.mem_takeWhile_imp he))
      · exact ⟨[], rfl, nofun⟩
      · exact ⟨['.'], rfl, by decide⟩
    · rw [fraction_of_ne hc]
      exact ⟨[], rfl, nofun⟩

theorem exponent_split (t : Text) : (∃ x, t = x ++ (exponent t).2 ∧ ∀ c ∈ x, glues c = true) ∨
    ∃ e d u, t = e :: d :: u ∧ isPower e ∧ isSign d := by
  by_cases hexponent : ∃ e d u, t = e :: d :: u ∧ isPower e ∧ (isDigit d = true ∨ isSign d)
  · obtain ⟨e, d, u, rfl, he, hd⟩ := hexponent
    refine hd.elim (fun hd => .inl ?_) fun hd => .inr ⟨e, d, u, rfl, he, hd⟩
    refine ⟨e :: d :: u.takeWhile isDigitRun, ?_, ?_⟩
    · rw [exponent_eq_some he (.inl hd), List.cons_append, List.cons_append, List.takeWhile_append_dropWhile]
    · refine List.forall_mem_cons.2 ⟨glues_of_isPower he, List.forall_mem_cons.2 ⟨glues_of_isDigit hd, fun f hf => ?_⟩⟩
      exact glues_of_isNameChar (isNameChar_of_isDigitRun (List.mem_takeWhile_imp hf))
  · rw [exponent_eq_none fun e d u ht he hd => hexponent ⟨e, d, u, ht, he, hd⟩]
    exact .inl ⟨[], rfl, nofun⟩

/-- What stands behind the digits and the fraction of a number. -/
def behindFraction (t : Text) : Text := (fraction (t.dropWhile isDigitRun)).2

theorem behindFraction_split (t : Text) : ∃ x, t = x ++ behindFraction t ∧ ∀ c ∈ x, glues c = true := by
  obtain ⟨x, hx, hglues⟩ := fraction_split (t.dropWhile isDigitRun)
  refine ⟨t.takeWhile isDigitRun ++ x, ?_, List.forall_mem_append.2 ⟨fun c hc => ?_, hglues⟩⟩
  · rw [List.append_assoc, behindFraction, ← hx, List.takeWhile_append_dropWhile]
  · exact glues_of_isNameChar (isNameChar_of_isDigitRun (List.mem_takeWhile_imp hc))

theorem spelled_decimal (h : announced? t = none) : spelled t =
    (.decimal (plain (t.takeWhile isDigitRun)) (fraction (t.dropWhile isDigitRun)).1 (exponent (behindFraction t)).1,
      (exponent (behindFraction t)).2) := by
  rw [spelled, h]
  rfl

theorem spelled_based {base : Nat} {u : Text} (h : announced? t = some (base, u)) : spelled t =
    (.based base (plain (u.takeWhile (isBaseRun base))), u.dropWhile (isBaseRun base)) := by
  rw [spelled, h]

theorem Alone.point (h : Alone g x y) : y.head? ≠ some '.' := fun hhead =>
  absurd (h.ends '.' hhead) (by decide)

theorem Alone.behind (h : Alone g x y) : (∀ c ∈ (Formula.promoteRest true y).head?, isNameChar c = false) ∧
    pointJoins (Formula.promoteRest true y) = false :=
  ⟨not_head?_promoteRest rfl h.name true, pointJoins_of_head? (head?_promoteRest_ne (by decide) h.point true)⟩

/-- Digits that stand alone are spelled as a whole number, and with a fraction of zero when they are promoted. -/
theorem Alone.spelled (h : Alone g x y) : Token.spelled (x ++ y) = (.decimal x none none, y) ∧
    Token.spelled (Formula.promoteRest g (x ++ y)) = (.decimal x (some ['0']) none, Formula.promoteRest true y) := by
  let d : Digits := ⟨x, none, h.ne, h.digit, by simp, by simp⟩
  have hd := d.spelled_text h.name fun _ => pointJoins_of_head? h.point
  have hp := d.promote.spelled_text h.behind.1 (by simp [d, Digits.promote])
  have htext : d.promote.text = x ++ ['.', '0'] := by simp [d, Digits.promote, Digits.text]
  refine ⟨by simpa [d, Digits.text] using hd, ?_⟩
  rw [htext, List.append_assoc] at hp
  rw [h.promoteRest]
  exact hp

theorem head?_behind (h : announced? t = none) : ∀ c ∈ (spelled t).2.head?, isDigit c = false := by
  have hrun : ∀ u : Text, ∀ c ∈ (u.dropWhile isDigitRun).head?, isDigit c = false := fun u c hc =>
    (Bool.or_eq_false_iff.1 (Text.head?_dropWhile u c hc)).1
  have hfraction : ∀ u : Text, (∀ c ∈ u.head?, isDigit c = false) → ∀ c ∈ (fraction u).2.head?, isDigit c = false := by
    intro u hu
    unfold fraction
    split
    · split_ifs with hd hname
      · exact hrun _
      · exact hu
      · exact fun c hc => Option.some.inj hc ▸ Bool.eq_false_iff.2 hd
    · exact hu
  have hexponent : ∀ u : Text, (∀ c ∈ u.head?, isDigit c = false) → ∀ c ∈ (exponent u).2.head?, isDigit c = false := by
    intro u hu
    unfold exponent
    split
    · split_ifs
      · exact hrun _
      · exact hu
    · exact hu
  rw [spelled_decimal h]
  exact hexponent _ (hfraction _ (hrun _))

theorem glues_of_announced? {base : Nat} {u : Text} (h : announced? t = some (base, u)) :
    ∃ v, t = v ++ u ∧ ∀ c ∈ v, glues c = true := by
  unfold announced? at h
  split at h
  · next t =>
    split at h
    · next c u' hu =>
      obtain ⟨base', hbase, hpair⟩ := Option.map_eq_some_iff.1 h
      obtain ⟨rfl, rfl⟩ := Prod.mk.inj hpair
      refine ⟨'0' :: t.takeWhile (· == '_') ++ [c], ?_, ?_⟩
      · rw [List.append_assoc, List.singleton_append, List.cons_append, ← hu, List.takeWhile_append_dropWhile]
      · refine List.forall_mem_append.2 ⟨List.forall_mem_cons.2 ⟨rfl, fun d hd => ?_⟩, ?_⟩
        · rw [beq_iff_eq.1 (List.mem_takeWhile_imp (p := (· == '_')) hd)]
          rfl
        · exact List.forall_mem_singleton.2 (glues_of_base? hbase)
    · cases h
  · cases h

/-- A number of another base is made up of characters that digits are glued to. -/
theorem glues_of_based {base : Nat} {u : Text} (ha : announced? t = some (base, u))
    (hx : t = x ++ u.dropWhile (isBaseRun base)) : ∀ c ∈ x, glues c = true := by
  obtain ⟨v, hv, hglues⟩ := glues_of_announced? ha
  have hsplit : x = v ++ u.takeWhile (isBaseRun base) := by
    refine List.append_cancel_right (hx.symm.trans ?_)
    rw [List.append_assoc, List.takeWhile_append_dropWhile, hv]
  rw [hsplit]
  refine List.forall_mem_append.2 ⟨hglues, fun c hc => ?_⟩
  exact glues_of_isNameChar (isNameChar_of_isBaseRun (List.mem_takeWhile_imp hc))

/-- No digits alone stand behind the sign of an exponent. -/
theorem not_endsInSigned (ha : announced? t = none) (hx : t = x ++ (spelled t).2)
    (hsigned : ∀ e d u y, behindFraction t = e :: d :: (u ++ y) → isPower e → isSign d → ¬ Alone false u y) :
    (endsInSigned x && !(spelled t).2.head?.any glues) = false := by
  rw [spelled_decimal ha] at hx ⊢
  dsimp only at hx ⊢
  by_contra hopen
  obtain ⟨hends, hnext⟩ : endsInSigned x = true ∧ (exponent (behindFraction t)).2.head?.any glues = false := by
    simpa using hopen
  obtain ⟨w, hw, hglues⟩ := behindFraction_split t
  rcases exponent_split (behindFraction t) with ⟨v, hv, hv'⟩ | ⟨e, d, u, hu, he, hd⟩
  · have hspelling : x = w ++ v := by
      refine List.append_cancel_right (hx.symm.trans ?_)
      rw [List.append_assoc, ← hv, ← hw]
    rw [hspelling, endsInSigned_of_glues (List.forall_mem_append.2 ⟨hglues, hv'⟩)] at hends
    cases hends
  · have hrest : (exponent (behindFraction t)).2 = u.dropWhile isDigitRun := by
      rw [hu, exponent_eq_some he (.inr hd)]
    have hspelling : x = w ++ e :: d :: u.takeWhile isDigitRun := by
      refine List.append_cancel_right (hx.symm.trans ?_)
      rw [hrest, List.append_assoc, List.cons_append, List.cons_append, List.takeWhile_append_dropWhile, ← hu, ← hw]
    rw [hspelling, endsInSigned_signed he hd w fun c hc => List.mem_takeWhile_imp hc] at hends
    refine hsigned e d _ (u.dropWhile isDigitRun) ?_ he hd ⟨rfl, hends.1, hends.2, ends_of_any (hrest ▸ hnext)⟩
    rw [hu, List.takeWhile_append_dropWhile]

/-- What becomes of a number `x` in front of `y`. -/
inductive Respelled (g : Bool) (x y : Text) : Spelled → Spelled × Text → Prop
  /-- Digits that stand alone get a fraction. -/
  | whole (alone : Alone g x y) :
      Respelled g x y (.decimal x none none) (.decimal x (some ['0']) none, promoteRest true y)
  /-- Digits that stand alone behind the sign of an exponent get one that does not belong to them. -/
  | signed {sp : Spelled} {u : Text} (alone : Alone false u y) (signed : endsInSigned x = true)
      (not_whole : ¬ Alone g x y) : Respelled g x y sp (sp, '.' :: '0' :: promoteRest true y)
  | same {sp : Spelled} (not_signed : (endsInSigned x && !y.head?.any glues) = false) (not_whole : ¬ Alone g x y) :
      Respelled g x y sp (sp, promoteRest (x.getLast?.any glues) y)

theorem spelled_promoteRest (hc : isDigit c = true) (hx : c :: t = x ++ (spelled (c :: t)).2) :
    Respelled g x (spelled (c :: t)).2 (spelled (c :: t)).1 (spelled (promoteRest g (c :: t))) := by
  by_cases halone : Alone g x (spelled (c :: t)).2
  · obtain ⟨hread, hpromoted⟩ := halone.spelled
    rw [← hx] at hread hpromoted
    rw [hpromoted, congrArg Prod.fst hread]
    exact .whole halone
  have hpass : promoteRest g (c :: t) = promoteRest true (c :: t) := by
    refine promoteRest_of_not_alone fun u y hu hualone => halone ?_
    have hread := hualone.spelled.1
    rw [← hu] at hread
    rw [congrArg Prod.snd hread] at hx ⊢
    rwa [List.append_cancel_right (hx.symm.trans hu)]
  have hne : x ≠ [] := by
    rintro rfl
    have hlength := (suffix_spelled hc t).length_le
    rw [← show c :: t = (spelled (c :: t)).2 from hx] at hlength
    exact absurd hlength (Nat.not_succ_le_self _)
  rw [hpass]
  cases ha : announced? (c :: t) with
  | some r =>
    obtain ⟨base, u⟩ := r
    obtain ⟨htake, hdrop⟩ := span_isBaseRun base u
    have hpromoted : announced? (promoteRest true (c :: t)) = some (base, promoteRest true u) := by
      rw [announced?_promoteRest, ha]
      rfl
    have hglues := glues_of_based ha (by rwa [spelled_based ha] at hx)
    rw [spelled_based hpromoted, htake, hdrop]
    rw [spelled_based ha] at halone ⊢
    rw [← any_getLast?_of_glues [] hne hglues]
    exact .same (by rw [endsInSigned_of_glues hglues]; rfl) halone
  | none =>
    obtain ⟨htake, hdrop⟩ := span_isDigitRun (c :: t)
    have hbehind : behindFraction (promoteRest true (c :: t)) = promoteRest true (behindFraction (c :: t)) := by
      rw [behindFraction, hdrop, fraction_promoteRest]
      rfl
    have hpromoted : announced? (promoteRest true (c :: t)) = none := by
      rw [announced?_promoteRest, ha]
      rfl
    rw [spelled_decimal hpromoted, htake, hdrop, fraction_promoteRest, hbehind]
    by_cases hsigned : ∃ e d u y, behindFraction (c :: t) = e :: d :: (u ++ y) ∧ isPower e ∧ isSign d ∧ Alone false u y
    · obtain ⟨e, d, u, y, hu, he, hd, hualone⟩ := hsigned
      obtain ⟨hread, hexponent⟩ := exponent_of_alone he hd hualone
      rw [← hu] at hread hexponent
      rw [spelled_decimal ha, hread] at hx halone ⊢
      rw [hexponent]
      obtain ⟨w, hw, -⟩ := behindFraction_split (c :: t)
      have hspelling : x = w ++ e :: d :: u := by
        refine List.append_cancel_right (hx.symm.trans (hw.trans ?_))
        rw [hu, List.append_assoc, List.cons_append, List.cons_append]
      refine .signed hualone ?_ halone
      rw [hspelling, endsInSigned_signed he hd w fun c hc => isDigitRun_of_isDigit (hualone.digit c hc)]
      exact ⟨hualone.ne, hualone.digit⟩
    · have hnone : ∀ e d u y, behindFraction (c :: t) = e :: d :: (u ++ y) → isPower e → isSign d → ¬ Alone false u y :=
        fun e d u y hu he hd hualone => hsigned ⟨e, d, u, y, hu, he, hd, hualone⟩
      have hends := not_endsInSigned ha hx hnone
      have hhead := head?_behind ha
      rw [exponent_promoteRest hnone]
      rw [spelled_decimal ha] at hends halone hhead ⊢
      rw [promoteRest_glued true (x.getLast?.any glues) hhead]
      exact .same hends halone

/-! ### Numbers -/

/-- The tokens of a lexeme behind promotion, given how it is spelled without a minus sign in front of its digits,
whether digits are glued to what stands in front of it, and the character behind it. A whole number that stands alone
becomes the float of the same value, and digits alone behind the sign of an exponent leave a point and a zero behind the
number. -/
def promotedNumber (negative glued : Bool) (x : Text) (next : Option Char) (k : Token) : List Token :=
  if x ≠ [] ∧ x.all isDigit ∧ !glued ∧ !next.any glues then [.decimal negative ⟨10 * Text.value x, -1⟩]
  else if endsInSigned x && !next.any glues then [k, .symbol .dot, .int 0]
  else [k]

variable {L : Lexer} (hL : L.Rules)

/-- The promoted number is read, and what is read behind it comes behind its tokens. -/
def ReadsAs (L : Lexer) (r : Option (Option Token × Text)) (ks : List Token) (z : Text) : Prop :=
  ∃ k ks' tail, r = some (some k, tail) ∧ L.opensOperand k = false ∧ ks = k :: ks' ∧
    L.lexFrom false tail = (L.lexFrom false z).map (ks' ++ ·)

theorem readsAs_single {k : Token} (hk : L.opensOperand k = false) (z : Text) : ReadsAs L (some (some k, z)) [k] z :=
  ⟨k, [], z, rfl, hk, rfl, by simp⟩

include hL

/-- The point and the zero behind an exponent are tokens of their own. -/
theorem Alone.lexFrom_pointZero (h : Alone g x y) :
    L.lexFrom false ('.' :: '0' :: Formula.promoteRest true y) =
      (L.lexFrom false (Formula.promoteRest true y)).map ([.symbol .dot, .int 0] ++ ·) := by
  have hdot : L.lexFrom false ('.' :: '0' :: Formula.promoteRest true y) = _ :=
    hL.lexFrom_joint (m := .dot) (by decide) (by decide)
      (fun d hd => hL.isSymbol_isNameChar (p := (['.'], .dot)) (by decide) (Option.some.inj hd ▸ rfl))
      (hL.ends .dot (by decide))
  have hzero : L.lexFrom false ('0' :: Formula.promoteRest true y) = _ :=
    hL.lexFrom_digits Digits.zero h.behind.1 fun _ => h.behind.2
  rw [hdot, hzero, Option.map_map]
  rfl

/-- A number is read in front of promoted text, and its tokens are promoted. -/
theorem readsAs_number {negative : Bool} {k : Token} (hc : isDigit c = true)
    (h : L.number? negative (spelled (c :: t)).1 = some k) (hx : c :: t = x ++ (spelled (c :: t)).2) :
    ReadsAs L (L.readNumber negative (promoteRest g (c :: t))) (promotedNumber negative g x (spelled (c :: t)).2.head? k)
      (promoteRest (x.getLast?.any glues) (spelled (c :: t)).2) := by
  have hends := hL.number_ends _ _ _ h
  rw [Lexer.readNumber]
  generalize hread : spelled (promoteRest g (c :: t)) = r
  have hrespelled : Respelled g x (spelled (c :: t)).2 (spelled (c :: t)).1 r := hread ▸ spelled_promoteRest hc hx
  generalize (spelled (c :: t)).1 = sp at h hrespelled
  generalize (spelled (c :: t)).2 = b at hx hrespelled ⊢
  have hwhole : ¬ Alone g x b → ¬ (x ≠ [] ∧ x.all isDigit = true ∧ (!g) = true ∧ (!b.head?.any glues) = true) := by
    rintro hnot ⟨hne, hdigit, hg, hnext⟩
    exact hnot ⟨by simpa using hg, hne, List.all_eq_true.1 hdigit, ends_of_any (by simpa using hnext)⟩
  cases hrespelled with
  | whole halone =>
    have hvalue : Text.value (x ++ ['0']) = 10 * Text.value x := by simp [Text.value_append, Text.digit]
    have hpoint := hL.point negative x ['0'] halone.ne halone.digit (by decide) (by decide)
    have hglues : x.getLast?.any glues = true :=
      any_getLast?_of_glues [] halone.ne fun d hd => glues_of_isDigit (halone.digit d hd)
    rw [Decimal.ofParts, hvalue] at hpoint
    rw [hpoint, hglues, promotedNumber, if_pos ⟨halone.ne, List.all_eq_true.2 halone.digit, by simp [halone.free],
      by simp [halone.any]⟩]
    exact readsAs_single (hL.number_ends _ _ _ hpoint) _
  | signed halone hsigned hnot =>
    rw [h, promotedNumber, if_neg (hwhole hnot), hsigned, halone.any]
    refine ⟨k, _, _, rfl, hends, rfl, ?_⟩
    have hlast : x.getLast?.any glues = true := by
      have hdigit := (Bool.and_eq_true_iff.1 hsigned).1
      cases hl : x.getLast? with
      | none => simp [hl] at hdigit
      | some d => exact glues_of_isDigit (by simpa [hl] using hdigit)
    rw [hlast]
    exact halone.lexFrom_pointZero hL
  | same hsigned hnot =>
    rw [h, promotedNumber, if_neg (hwhole hnot), hsigned]
    exact readsAs_single hends _

theorem number?_promoteRest_none {negative : Bool} (hc : isDigit c = true)
    (h : L.number? negative (spelled (c :: t)).1 = none) :
    L.readNumber negative (promoteRest g (c :: t)) = none := by
  obtain ⟨x, hx⟩ : ∃ x, c :: t = x ++ (spelled (c :: t)).2 := by
    obtain ⟨x, hx⟩ := (suffix_spelled hc t).trans (List.suffix_cons c t)
    exact ⟨x, hx.symm⟩
  rw [Lexer.readNumber]
  generalize hread : spelled (promoteRest g (c :: t)) = r
  have hrespelled : Respelled g x (spelled (c :: t)).2 (spelled (c :: t)).1 r := hread ▸ spelled_promoteRest hc hx
  generalize (spelled (c :: t)).1 = sp at h hrespelled
  cases hrespelled with
  | whole halone =>
    rw [hL.whole negative x halone.ne halone.digit] at h
    cases h
  | signed | same => rw [h]; rfl

end Spreadsheet.Formula
