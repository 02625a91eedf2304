import Spreadsheet.Formula.Desugar
import Spreadsheet.Proofs.Formula.Kinds
import Spreadsheet.Proofs.Formula.Notation

/-!
# Promoting numbers

How whole numbers become floats, stretch by stretch: text without digits stays (`promoteFrom_pass`), a run of digits
gets a fraction unless it is glued to something (`promoteFrom_digits`), and so do the digits of a literal
(`promoteFrom_text`).
-/

namespace Spreadsheet

open Text (isDigit)

namespace Formula

variable {g : Bool} {x y : Text}

theorem promoteFrom_cons {c : Char} (hdigit : isDigit c = false) (hpower : c ≠ '^') (t : Text) :
    promoteFrom g (c :: t) = c :: promoteFrom (glues c) t := by
  rw [promoteFrom, if_neg hpower, if_neg (Bool.eq_false_iff.1 hdigit)]

/-- Only digits are glued to what stands in front of them. -/
theorem promoteFrom_glued (g g' : Bool) (h : ∀ c ∈ y.head?, isDigit c = false) : promoteFrom g y = promoteFrom g' y := by
  cases y with
  | nil => rw [promoteFrom, promoteFrom]
  | cons c t =>
    have hdigit : ¬ isDigit c = true := Bool.eq_false_iff.1 (h c rfl)
    rw [promoteFrom, promoteFrom, if_neg hdigit, if_neg hdigit]

theorem promoteFrom_pass (hx : ∀ c ∈ x, isDigit c = false ∧ c ≠ '^') :
    promoteFrom g (x ++ y) = x ++ promoteFrom (x.foldl (fun _ c => glues c) g) y := by
  induction x generalizing g with
  | nil => rfl
  | cons c x ih =>
    rw [List.forall_mem_cons] at hx
    rw [List.cons_append, promoteFrom_cons hx.1.1 hx.1.2, ih hx.2]
    rfl

/-- A run of digits gets a fraction unless it is glued to something. -/
theorem promoteFrom_digits (hne : x ≠ []) (hx : ∀ c ∈ x, isDigit c = true) (hy : ∀ c ∈ y.head?, isDigit c = false) :
    promoteFrom g (x ++ y) =
      x ++ (if !g && !(y.head?.any glues) then ['.', '0'] else []) ++ promoteFrom true y := by
  obtain ⟨c, x, rfl⟩ := List.exists_cons_of_ne_nil hne
  rw [List.forall_mem_cons] at hx
  have hpower : c ≠ '^' := Text.ne_of_kind hx.1 rfl
  have hspan : y.takeWhile isDigit = [] ∧ y.dropWhile isDigit = y := by
    cases y with
    | nil => exact ⟨rfl, rfl⟩
    | cons d y => simp [hy d rfl]
  rw [List.cons_append, promoteFrom, if_neg hpower, if_pos hx.1]
  dsimp only
  rw [List.takeWhile_append_of_pos hx.2, List.dropWhile_append_of_pos hx.2, hspan.1, hspan.2, List.append_nil]

/-- Behind something that digits are glued to, whatever is glued as well is passed over. -/
theorem promoteFrom_true_cons {c : Char} (hc : glues c = true) (t : Text) :
    promoteFrom true (c :: t) = c :: promoteFrom true t := by
  have hpower : c ≠ '^' := Text.ne_of_kind hc rfl
  cases hdigit : isDigit c with
  | false => rw [promoteFrom_cons hdigit hpower, hc]
  | true =>
    have hrun : promoteFrom true t = t.takeWhile isDigit ++ promoteFrom true (t.dropWhile isDigit) := by
      cases t with
      | nil => simp
      | cons d t =>
        cases hd : isDigit d with
        | false => simp [hd]
        | true =>
          have hpower : d ≠ '^' := Text.ne_of_kind hd rfl
          rw [promoteFrom, if_neg hpower, if_pos hd]
          simp [hd]
    rw [promoteFrom, if_neg hpower, if_pos hdigit, hrun]
    simp

/-! ### Code and literals -/

/-- A text with its code promoted, where `g` tells whether the character in front of it belongs to a name or is a
point. -/
def promoteRest (g : Bool) (s : Text) : Text :=
  promoteFrom g (s.takeWhile (· != '"')) ++ Text.mapCode promote (s.dropWhile (· != '"'))

/-- The text behind the first mark of a literal with the code behind the literal promoted. -/
def promoteLiteral (t : Text) : Text := (Text.splitLiteral t).1 ++ promoteRest false (Text.splitLiteral t).2

theorem promoteFrom_nil : promoteFrom g [] = [] := by rw [promoteFrom]

theorem mapCode_promote (s : Text) : Text.mapCode promote s = promoteRest false s := by
  exact Text.mapCode_eq promoteFrom_nil s

theorem promoteRest_nil : promoteRest g [] = [] := by simp [promoteRest, promoteFrom_nil, Text.mapCode_nil]

theorem promoteRest_quote (t : Text) : promoteRest g ('"' :: t) = '"' :: promoteLiteral t := by
  have hliteral := Text.mapCode_literal (x := []) promote (by simp) t
  rw [List.nil_append, promote, promoteFrom_nil, List.nil_append] at hliteral
  rw [promoteRest, List.takeWhile_cons_of_neg (by decide), List.dropWhile_cons_of_neg (by decide), promoteFrom_nil,
    List.nil_append, hliteral, mapCode_promote, promoteLiteral, List.cons_append]

/-- The first character of a text stays, unless it is a digit or stands for a power. -/
theorem promoteRest_cons {c : Char} (hdigit : isDigit c = false) (hpower : c ≠ '^') (hquote : c ≠ '"') (t : Text) :
    promoteRest g (c :: t) = c :: promoteRest (glues c) t := by
  rw [promoteRest, List.takeWhile_cons_of_pos (by simpa using hquote), List.dropWhile_cons_of_pos (by simpa using hquote),
    promoteFrom_cons hdigit hpower]
  rfl

theorem promoteRest_power (t : Text) : promoteRest g ('^' :: t) = '*' :: '*' :: promoteRest false t := by
  rw [promoteRest, List.takeWhile_cons_of_pos (by decide), List.dropWhile_cons_of_pos (by decide), promoteFrom,
    if_pos rfl]
  rfl

theorem promoteRest_true_cons {c : Char} (hc : glues c = true) (t : Text) :
    promoteRest true (c :: t) = c :: promoteRest true t := by
  have hquote : c ≠ '"' := Text.ne_of_kind hc rfl
  rw [promoteRest, List.takeWhile_cons_of_pos (by simpa using hquote), List.dropWhile_cons_of_pos (by simpa using hquote),
    promoteFrom_true_cons hc]
  rfl

theorem promoteRest_true_append (hx : ∀ c ∈ x, glues c = true) : promoteRest true (x ++ y) = x ++ promoteRest true y := by
  induction x with
  | nil => rfl
  | cons c x ih =>
    rw [List.forall_mem_cons] at hx
    rw [List.cons_append, promoteRest_true_cons hx.1, ih hx.2, List.cons_append]

theorem promoteRest_digits (hne : x ≠ []) (hx : ∀ c ∈ x, isDigit c = true) (hy : ∀ c ∈ y.head?, isDigit c = false) :
    promoteRest g (x ++ y) = x ++ (if !g && !(y.head?.any glues) then ['.', '0'] else []) ++ promoteRest true y := by
  have hquote : ∀ c ∈ x, (c != '"') = true := by
    intro c hc
    have hne : c ≠ '"' := Text.ne_of_kind (hx _ hc) rfl
    simpa using hne
  have hhead : (y.takeWhile (· != '"')).head?.any glues = y.head?.any glues := by
    cases y with
    | nil => rfl
    | cons d y =>
      by_cases hd : d = '"'
      · subst hd
        rfl
      · rw [List.takeWhile_cons_of_pos (by simpa using hd)]
        rfl
  have hstop : ∀ c ∈ (y.takeWhile (· != '"')).head?, isDigit c = false := fun c hc => hy c (Text.head?_takeWhile hc)
  rw [promoteRest, List.takeWhile_append_of_pos hquote, List.dropWhile_append_of_pos hquote,
    promoteFrom_digits hne hx hstop, hhead, List.append_assoc]
  rfl

theorem promoteRest_glued (g g' : Bool) (h : ∀ c ∈ y.head?, isDigit c = false) : promoteRest g y = promoteRest g' y := by
  rw [promoteRest, promoteRest, promoteFrom_glued g g' fun c hc => h c (Text.head?_takeWhile hc)]

theorem head?_promoteRest (g : Bool) (y : Text) :
    (promoteRest g y).head? = y.head?.map fun c => if c = '^' then '*' else c := by
  cases y with
  | nil => rw [promoteRest_nil]; rfl
  | cons c y =>
    by_cases hquote : c = '"'
    · subst hquote
      rw [promoteRest_quote]
      rfl
    by_cases hpower : c = '^'
    · subst hpower
      rw [promoteRest_power]
      rfl
    cases hdigit : isDigit c with
    | false =>
      rw [promoteRest_cons hdigit hpower hquote]
      simp [hpower]
    | true =>
      have hx : ∀ d ∈ c :: y.takeWhile isDigit, isDigit d = true :=
        List.forall_mem_cons.2 ⟨hdigit, fun d => List.mem_takeWhile_imp⟩
      rw [Text.cons_eq_append_dropWhile isDigit c y, promoteRest_digits (List.cons_ne_nil _ _) hx (Text.head?_dropWhile y)]
      simp [hpower]

end Formula

namespace Digits

/-- The digits with a fraction, zero if they have none. -/
def promote (d : Digits) : Digits :=
  match d.fraction with
  | none => ⟨d.whole, some ['0'], d.whole_ne, d.whole_digit, zeroPoint.fraction_ne, zeroPoint.fraction_digit⟩
  | some _ => d

/-- The digits of a literal get a fraction if they have none. -/
theorem promoteFrom_text (d : Digits) {y : Text} (hy : ∀ c ∈ y.head?, Formula.glues c = false) :
    Formula.promoteFrom false (d.text ++ y) = d.promote.text ++ Formula.promoteFrom false y := by
  have hdigit : ∀ c ∈ y.head?, isDigit c = false := fun c hc =>
    Bool.eq_false_iff.2 fun h => Bool.eq_false_iff.1 (hy c hc) (Formula.glues_of_isDigit h)
  cases hfraction : d.fraction with
  | none =>
    have hhead : y.head?.any Formula.glues = false := by
      cases y with
      | nil => rfl
      | cons c y => exact hy c rfl
    rw [show d.text = d.whole by simp [text, hfraction], Formula.promoteFrom_digits d.whole_ne d.whole_digit hdigit, hhead,
      Formula.promoteFrom_glued true false hdigit]
    simp [promote, text, hfraction]
  | some t =>
    have ht : ∀ c ∈ t, isDigit c = true := d.fraction_digit t hfraction
    have hne : t ≠ [] := fun h => d.fraction_ne (by rw [hfraction, h])
    have htext : d.text = d.whole ++ '.' :: t := by simp [text, hfraction]
    have hpoint : ∀ c ∈ ('.' :: (t ++ y)).head?, isDigit c = false := fun c hc => Option.some.inj hc ▸ rfl
    rw [show d.promote = d by simp [promote, hfraction], htext, List.append_assoc, List.cons_append,
      Formula.promoteFrom_digits d.whole_ne d.whole_digit hpoint, Formula.promoteFrom_cons rfl (by decide),
      Formula.promoteFrom_digits hne ht hdigit, Formula.promoteFrom_glued true false hdigit]
    simp [Formula.glues]

end Digits

namespace Script

/-- The numeral with its digits changed. -/
def Numeral.map (change : Digits → Digits) : Numeral → Numeral
  | plain d => plain (change d)
  | negative d => negative (change d)
  | quotient neg d => quotient neg (change d)

namespace Written

mutual

def map (change : Digits → Digits) : Written → Written
  | number n => number (n.map change)
  | bool b => bool b
  | quoted t => quoted t
  | list items => list (mapItems change items)

def mapItems (change : Digits → Digits) : List Written → List Written
  | [] => []
  | w :: rest => map change w :: mapItems change rest

end

theorem mapItems_eq_map (change : Digits → Digits) (items : List Written) :
    mapItems change items = items.map (map change) := by
  induction items with
  | nil => rfl
  | cons w rest ih => rw [mapItems, ih, List.map_cons]

theorem map_id (w : Written) : w.map id = w := by
  induction w with
  | number n => cases n <;> rfl
  | bool b => rfl
  | quoted t => rfl
  | list items ih =>
    have hitems : items.map (map id) = items := by
      conv_rhs => rw [← List.map_id items]
      exact List.map_congr_left ih
    rw [map, mapItems_eq_map, hitems]

/-- The form with a fraction for each of its whole numbers. -/
def promote (w : Written) : Written := w.map Digits.promote

end Written

end Script

end Spreadsheet
