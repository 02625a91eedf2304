import Spreadsheet.Markup
import Spreadsheet.Proofs.Text.Blank

/-!
# Wrappers come off as they were put on

A wrapper is peeled off again as the layer that it is, if its color is `Tidy`, as it is when the wrapper was read from
a tool, and the text it was put around is `Balanced`: then the parenthesis of the wrapper closes at the end of the text
and nowhere else (`peel?_apply`). The text with the wrapper is balanced as well, so wrappers may be put around each
other any number of times (`parse_foldr_apply`). The wrapper put on last is the outermost layer and covers the style of
the others.
-/

namespace Spreadsheet

namespace Markup

variable {d e : Nat} {t u raw : Text}

/-! ### Balanced texts -/

/-- The parentheses of a text match. -/
structure Balanced (t : Text) : Prop where
  /-- On the way no more are closed than were opened. -/
  prefixes : ∀ u, u <+: t → u.count ')' ≤ u.count '('
  /-- In the end all are closed. -/
  total : t.count ')' = t.count '('

/-- How many parentheses are open behind a text, if never more are closed than are open. -/
def level? (depth : Nat) : Text → Option Nat
  | [] => some depth
  | c :: t =>
    if c = '(' then level? (depth + 1) t
    else if c = ')' then
      match depth with
      | 0 => none
      | d + 1 => level? d t
    else level? depth t

theorem paren_cases (c : Char) : c = '(' ∨ c = ')' ∨ c ≠ '(' ∧ c ≠ ')' := by
  by_cases ho : c = '('
  · exact .inl ho
  · by_cases hc : c = ')'
    · exact .inr (.inl hc)
    · exact .inr (.inr ⟨ho, hc⟩)

@[simp] theorem level?_nil : level? d [] = some d := rfl

@[simp] theorem level?_open : level? d ('(' :: t) = level? (d + 1) t := rfl

@[simp] theorem level?_close_zero : level? 0 (')' :: t) = none := rfl

@[simp] theorem level?_close : level? (d + 1) (')' :: t) = level? d t := rfl

theorem level?_other {c : Char} (ho : c ≠ '(') (hc : c ≠ ')') : level? d (c :: t) = level? d t := by
  show (if c = '(' then _ else if c = ')' then _ else _) = _
  rw [if_neg ho, if_neg hc]

theorem level?_append : level? d (t ++ u) = (level? d t).bind (level? · u) := by
  induction t generalizing d with
  | nil => rfl
  | cons c t ih =>
    obtain rfl | rfl | ⟨ho, hc⟩ := paren_cases c
    · exact ih
    · cases d with
      | zero => rfl
      | succ d => exact ih
    · rw [List.cons_append, level?_other ho hc, level?_other ho hc, ih]

theorem forall_prefix_cons {P : Text → Prop} {c : Char} :
    (∀ u, u <+: c :: t → P u) ↔ P [] ∧ ∀ u, u <+: t → P (c :: u) := by
  constructor
  · exact fun h => ⟨h [] List.nil_prefix, fun u hu => h (c :: u) (List.cons_prefix_cons.2 ⟨rfl, hu⟩)⟩
  · rintro ⟨hnil, hcons⟩ u hu
    rcases List.prefix_cons_iff.1 hu with rfl | ⟨v, rfl, hv⟩
    · exact hnil
    · exact hcons v hv

theorem level?_eq_some_iff : level? d t = some e ↔
    (∀ u, u <+: t → u.count ')' ≤ d + u.count '(') ∧ d + t.count '(' = t.count ')' + e := by
  induction t generalizing d with
  | nil => simp [eq_comm]
  | cons c t ih =>
    rw [forall_prefix_cons (P := fun u => u.count ')' ≤ d + u.count '(')]
    obtain rfl | rfl | ⟨ho, hc⟩ := paren_cases c
    · simp [ih, Nat.add_assoc, Nat.add_comm 1]
    · cases d with
      | zero => simpa using fun h => absurd (h [] List.nil_prefix) (by simp)
      | succ d =>
        have hprefix (m n : Nat) : m + 1 ≤ d + 1 + n ↔ m ≤ d + n := by omega
        have htotal (m n : Nat) : d + 1 + m = n + 1 + e ↔ d + m = n + e := by omega
        simp [ih, hprefix, htotal]
    · simp [level?_other ho hc, ih, List.count_cons_of_ne ho, List.count_cons_of_ne hc]

theorem balanced_iff : Balanced t ↔ level? 0 t = some 0 := by
  rw [level?_eq_some_iff]
  simp only [Nat.zero_add, Nat.add_zero]
  exact ⟨fun h => ⟨h.prefixes, h.total.symm⟩, fun h => ⟨h.1, h.2.symm⟩⟩

instance (t : Text) : Decidable (Balanced t) := decidable_of_iff _ balanced_iff.symm

namespace Balanced

theorem level? (h : Balanced t) (d : Nat) : level? d t = some d :=
  level?_eq_some_iff.2 ⟨fun u hu => Nat.le_add_left_of_le (h.prefixes u hu), by rw [h.total, Nat.add_comm]⟩

theorem append (ht : Balanced t) (hu : Balanced u) : Balanced (t ++ u) := by
  rw [balanced_iff, level?_append, ht.level? 0]
  exact hu.level? 0

theorem enclose (h : Balanced t) : Balanced ('(' :: (t ++ [')'])) := by
  rw [balanced_iff, level?_open, level?_append, h.level? 1]
  rfl

end Balanced

/-! ### Reading past a text -/

theorem enclosed?_other {c : Char} (ho : c ≠ '(') (hc : c ≠ ')') :
    enclosed? d (c :: t) = (enclosed? d t).map fun (a, b) => (c :: a, b) := by
  show (if c = '(' then _ else if c = ')' then _ else _) = _
  rw [if_neg ho, if_neg hc]

/-- The parenthesis that is looked for does not stand in a text behind which more are open than there have to be. -/
theorem enclosed?_append (h : level? d t = some e) (u : Text) :
    enclosed? d (t ++ u) = (enclosed? e u).map fun (a, b) => (t ++ a, b) := by
  induction t generalizing d with
  | nil =>
    obtain rfl := Option.some.inj h
    simp
  | cons c t ih =>
    have hcons {d : Nat} (h : level? d t = some e) :
        (enclosed? d (t ++ u)).map (fun (a, b) => (c :: a, b)) = (enclosed? e u).map fun (a, b) => (c :: t ++ a, b) := by
      rw [ih h, Option.map_map]
      rfl
    obtain rfl | rfl | ⟨ho, hc⟩ := paren_cases c
    · exact hcons h
    · cases d with
      | zero => cases h
      | succ d => exact hcons h
    · rw [level?_other ho hc] at h
      rw [List.cons_append, enclosed?_other ho hc]
      exact hcons h

theorem enclosed?_balanced (h : Balanced t) : enclosed? 0 (t ++ [')']) = some (t, []) := by
  rw [enclosed?_append (h.level? 0)]
  simp [enclosed?]

theorem oneArgument_other {c : Char} (ho : c ≠ '(') (hc : c ≠ ')') :
    Wrapper.oneArgument d (c :: t) = if c = ',' ∧ d = 0 then false else Wrapper.oneArgument d t := by
  show (if c = '(' then _ else if c = ')' then _ else _) = _
  rw [if_neg ho, if_neg hc]

theorem level?_of_oneArgument (h : Wrapper.oneArgument d t = true) : level? d t = some 0 := by
  induction t generalizing d with
  | nil => simpa [Wrapper.oneArgument] using h
  | cons c t ih =>
    obtain rfl | rfl | ⟨ho, hc⟩ := paren_cases c
    · exact ih h
    · cases d with
      | zero => cases h
      | succ d => exact ih h
    · rw [oneArgument_other ho hc] at h
      rw [level?_other ho hc]
      split at h
      · cases h
      · exact ih h

theorem firstArgument?_append (h : Wrapper.oneArgument d t = true) (u : Text) :
    firstArgument? d (t ++ ',' :: u) = some (t, u) := by
  induction t generalizing d with
  | nil =>
    obtain rfl : d = 0 := by simpa [Wrapper.oneArgument] using h
    rfl
  | cons c t ih =>
    rw [List.cons_append, firstArgument?]
    obtain rfl | rfl | ⟨ho, hc⟩ := paren_cases c
    · simp [ih h]
    · cases d with
      | zero => cases h
      | succ d => simp [ih h]
    · rw [oneArgument_other ho hc] at h
      split at h
      · cases h
      · next hcomma => simp [hcomma, ho, hc, ih h]

end Markup

/-! ### Tools -/

open Markup

namespace Wrapper

variable {w : Wrapper}

/-- Some tool stands for the wrapper. -/
def IsTool (w : Wrapper) : Prop := ∃ name, ofTool? name = some w

/-- The color of the wrapper, if it has one, is one argument without white space around it. -/
def Tidy (w : Wrapper) : Prop := ∀ c, w.color? = some c → oneArgument 0 c = true ∧ Text.trim c = c

theorem eq_of_plain? {n : Text} (h : plain? n = some w) : w.name = n ∧ w.color? = none := by
  have hname := List.find?_some h
  have hmem := List.mem_of_find?_eq_some h
  refine ⟨by simpa using hname, ?_⟩
  simp only [List.mem_cons, List.not_mem_nil, or_false] at hmem
  rcases hmem with rfl | rfl | rfl | rfl | rfl | rfl <;> rfl

theorem eq_of_colored? {n : Text} {mk : Text → Wrapper} (h : colored? n = some mk) (c : Text) :
    (mk c).name = n ∧ (mk c).color? = some c := by
  unfold colored? at h
  split at h
  · next hn => cases h; exact ⟨hn.symm, rfl⟩
  · split at h
    · next hn => cases h; exact ⟨hn.symm, rfl⟩
    · cases h

theorem IsTool.isColor {c : Text} (h : w.IsTool) (hc : w.color? = some c) : isColor c = true ∧ Text.trim c = c := by
  obtain ⟨name, h⟩ := h
  unfold ofTool? at h
  split at h
  · obtain ⟨-, hnone⟩ := eq_of_plain? h
    rw [hnone] at hc
    cases hc
  · next n argument _ =>
    obtain ⟨mk, hmk, h⟩ := Option.bind_eq_some_iff.1 h
    obtain ⟨hcolor, hw⟩ := Option.ite_none_right_eq_some.1 h
    cases hw
    obtain ⟨-, hmk⟩ := eq_of_colored? hmk (Text.trim argument)
    obtain rfl := Option.some.inj (hmk.symm.trans hc)
    exact ⟨hcolor, Text.trim_trim argument⟩

theorem IsTool.tidy (h : w.IsTool) : w.Tidy := by
  intro c hc
  obtain ⟨hcolor, htrim⟩ := h.isColor hc
  exact ⟨(Bool.and_eq_true_iff.1 hcolor).2, htrim⟩

/-- What stands in front of the content between the parentheses of a wrapper. -/
def argument (w : Wrapper) : Text :=
  match w.color? with
  | some c => c ++ [',', ' ']
  | none => []

theorem apply_eq (w : Wrapper) (raw : Text) : w.apply raw = w.name ++ '(' :: (w.argument ++ raw ++ [')']) := by
  show w.name ++ '(' :: w.argument ++ raw ++ [')'] = _
  simp only [List.append_assoc, List.cons_append]

theorem name_mem_names (w : Wrapper) : w.name ∈ names := by
  cases w with
  | bold => decide
  | italic => decide
  | underline => decide
  | align a => cases a <;> decide
  | textColor c => exact (by decide : "textColor".toList ∈ names)
  | bgColor c => exact (by decide : "bgColor".toList ∈ names)

theorem balanced_name (w : Wrapper) : Balanced w.name :=
  (by decide : ∀ n ∈ names, Balanced n) w.name w.name_mem_names

theorem not_mem_name (w : Wrapper) : '(' ∉ w.name :=
  (by decide : ∀ n ∈ names, '(' ∉ n) w.name w.name_mem_names

theorem Tidy.balanced_argument (h : w.Tidy) : Balanced w.argument := by
  rw [balanced_iff, argument]
  cases hc : w.color? with
  | none => rfl
  | some c =>
    show level? 0 (c ++ [',', ' ']) = some 0
    rw [level?_append, level?_of_oneArgument (h c hc).1]
    rfl

end Wrapper

namespace Markup

variable {w : Wrapper} {raw : Text} {ws : List Wrapper}

theorem Balanced.apply (h : Balanced raw) (hw : w.Tidy) : Balanced (w.apply raw) := by
  rw [w.apply_eq]
  exact w.balanced_name.append (hw.balanced_argument.append h).enclose

theorem Balanced.foldr_apply (h : Balanced raw) (hws : ∀ w ∈ ws, w.Tidy) : Balanced (ws.foldr Wrapper.apply raw) := by
  induction ws with
  | nil => exact h
  | cons w ws ih =>
    rw [List.forall_mem_cons] at hws
    exact (ih hws.2).apply hws.1

/-- A wrapper around a balanced text comes off as it was put on. -/
theorem peel?_apply (hw : w.Tidy) (h : Balanced raw) : peel? (w.apply raw) = some (w, raw) := by
  have hcut : Text.cut? '(' (w.apply raw) = some (w.name, w.argument ++ raw ++ [')']) := by
    rw [w.apply_eq, Text.cut?_append w.not_mem_name]
  have hinner : enclosed? 0 (w.argument ++ raw ++ [')']) = some (w.argument ++ raw, []) :=
    enclosed?_balanced (hw.balanced_argument.append h)
  have hcolored {c : Text} (hc : w.color? = some c) :
      firstArgument? 0 (w.argument ++ raw) = some (c, ' ' :: raw) ∧ Text.trim c = c := by
    obtain ⟨hone, htrim⟩ := hw c hc
    rw [Wrapper.argument, hc]
    refine ⟨?_, htrim⟩
    simpa using firstArgument?_append hone (' ' :: raw)
  simp only [peel?, hcut, hinner, Option.bind_eq_bind, Option.bind_some, List.isEmpty_nil, Bool.not_true,
    Bool.false_eq_true, if_false]
  cases w with
  | textColor c =>
    obtain ⟨hfirst, htrim⟩ := hcolored rfl
    rw [hfirst]
    show some (Wrapper.textColor (Text.trim c), raw) = _
    rw [htrim]
  | bgColor c =>
    obtain ⟨hfirst, htrim⟩ := hcolored rfl
    rw [hfirst]
    show some (Wrapper.bgColor (Text.trim c), raw) = _
    rw [htrim]
  | align a => cases a <;> rfl
  | _ => rfl

theorem peelAll_of_peel? {inner : Text} (h : peel? raw = some (w, inner)) :
    peelAll raw = (w :: (peelAll inner).1, (peelAll inner).2) := by
  rw [peelAll]
  split
  · next hnone =>
    rw [h] at hnone
    cases hnone
  · next v inner' hsome =>
    rw [h] at hsome
    cases hsome
    rfl

end Markup

/-! ### Styles -/

/-- Adds a layer further out. Its alignment or color is the one that counts. -/
def Style.cover (s : Style) : Wrapper → Style
  | .bold => { s with bold := true }
  | .italic => { s with italic := true }
  | .underline => { s with underline := true }
  | .align a => { s with align := some a }
  | .textColor c => { s with textColor := some c }
  | .bgColor c => { s with bgColor := some c }

theorem Style.add_cover (s : Style) (v w : Wrapper) : (s.cover w).add v = (s.add v).cover w := by
  cases v <;> cases w <;> rfl

namespace Styled

variable {w : Wrapper} {raw : Text} {ws : List Wrapper}

theorem style_cons (w : Wrapper) (ws : List Wrapper) (t : Text) :
    (Styled.mk (w :: ws) t).style = (Styled.mk ws t).style.cover w := by
  have hcover (s : Style) : ws.foldl Style.add (s.cover w) = (ws.foldl Style.add s).cover w := by
    induction ws generalizing s with
    | nil => rfl
    | cons v ws ih => rw [List.foldl_cons, List.foldl_cons, Style.add_cover, ih]
  have hfirst : Style.add {} w = Style.cover {} w := by cases w <;> rfl
  rw [style, style, List.foldl_cons, hfirst, hcover]

theorem style_append (ws : List Wrapper) (s : Styled) :
    (Styled.mk (ws ++ s.layers) s.content).style = ws.foldr (fun w style => style.cover w) s.style := by
  induction ws with
  | nil => rfl
  | cons w ws ih => rw [List.cons_append, style_cons, ih, List.foldr_cons]

theorem parse_apply (hw : w.Tidy) (h : Balanced raw) :
    parse (w.apply raw) = ⟨w :: (parse raw).layers, (parse raw).content⟩ := by
  rw [parse, peelAll_of_peel? (peel?_apply hw h)]
  rfl

/-- Wrappers around a balanced text, the last one first, are so many layers around its own. -/
theorem parse_foldr_apply_of_tidy (hws : ∀ w ∈ ws, w.Tidy) (h : ws ≠ [] → Balanced raw) :
    parse (ws.foldr Wrapper.apply raw) = ⟨ws ++ (parse raw).layers, (parse raw).content⟩ := by
  induction ws with
  | nil => rfl
  | cons w ws ih =>
    rw [List.forall_mem_cons] at hws
    have hraw : Balanced raw := h (List.cons_ne_nil w ws)
    rw [List.foldr_cons, parse_apply hws.1 (hraw.foldr_apply hws.2), ih hws.2 fun _ => hraw]
    rfl

theorem parse_foldr_apply (hws : ∀ w ∈ ws, w.IsTool) (h : ws ≠ [] → Balanced raw) :
    parse (ws.foldr Wrapper.apply raw) = ⟨ws ++ (parse raw).layers, (parse raw).content⟩ :=
  parse_foldr_apply_of_tidy (fun w hw => (hws w hw).tidy) h

end Styled

end Spreadsheet
