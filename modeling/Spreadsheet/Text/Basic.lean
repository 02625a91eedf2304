/-!
# Text

Cell contents, formulas and scripts are lists of characters, so that every scan is a recursion on the
data. `decimal` writes a number and `value` reads one back (`value_append`).
-/

namespace Spreadsheet

/-- A piece of text, character by character. -/
abbrev Text := List Char

namespace Text

/-- What holds of every character of a text is decided along the text, not along all characters there are. -/
instance (priority := high) decidableForallMem {p : Char → Prop} [DecidablePred p] (t : Text) :
    Decidable (∀ c ∈ t, p c) := List.decidableBAll p t

/-- A decimal digit is one of the ten ASCII digits. -/
def isDigit (c : Char) : Bool := '0' ≤ c && c ≤ '9'

/-- A capital letter is one of `A` to `Z`. -/
def isCapital (c : Char) : Bool := 'A' ≤ c && c ≤ 'Z'

def isLetter (c : Char) : Bool := isCapital c || ('a' ≤ c && c ≤ 'z')

/-- Characters that glue to an identifier: letters, digits, `_` and everything beyond ASCII. -/
def isIdent (c : Char) : Bool := isLetter c || isDigit c || c == '_' || 128 ≤ c.toNat

/-- The number a digit stands for. -/
def digit (c : Char) : Nat := c.toNat - '0'.toNat

/-- The number written by a run of decimal digits. -/
def value (t : Text) : Nat := t.foldl (fun n c => 10 * n + digit c) 0

/-- A number in decimal digits, without leading zeros. -/
def decimal (n : Nat) : Text := Nat.toDigits 10 n

/-- An integer in decimal digits, with a minus sign if it is negative. -/
def integer (n : Int) : Text := if n < 0 then '-' :: decimal n.natAbs else decimal n.natAbs

/-- What follows `start`, if the text begins with it. -/
def after? : (start t : Text) → Option Text
  | [], t => some t
  | _ :: _, [] => none
  | c :: start, d :: t => if c = d then after? start t else none

/-- The text before the first `mark` and the text behind it. -/
def cut? (mark : Char) : Text → Option (Text × Text)
  | [] => none
  | c :: t => if c = mark then some ([], t) else (cut? mark t).map fun (a, b) => (c :: a, b)

/-- Parts written one after another with `sep` between them. -/
def join (sep : Text) : List Text → Text
  | [] => []
  | [a] => a
  | a :: b :: rest => a ++ sep ++ join sep (b :: rest)

/-- A character of a kind is none that is not of this kind. -/
theorem ne_of_kind {kind : Char → Bool} {c d : Char} (hc : kind c = true) (hd : kind d = false) : c ≠ d := by
  rintro rfl
  rw [hc] at hd
  cases hd

theorem value_append (t u : Text) : value (t ++ u) = u.foldl (fun n c => 10 * n + digit c) (value t) := by
  simp [value]

theorem isDigit_decimal (n : Nat) : ∀ c ∈ decimal n, isDigit c = true := by
  intro c hc
  have h := Nat.isDigit_of_mem_toDigits (by decide) (by decide) hc
  simpa [Char.isDigit, isDigit, Char.le_def] using h

theorem decimal_ne (n : Nat) : decimal n ≠ [] := Nat.toDigits_ne_nil

theorem notMem_decimal {c : Char} (hc : isDigit c = false) (n : Nat) : c ∉ decimal n := by
  intro h
  rw [isDigit_decimal n c h] at hc
  cases hc

theorem after?_append (start t : Text) : after? start (start ++ t) = some t := by
  induction start with
  | nil => rfl
  | cons c start ih => simp [after?, ih]

theorem eq_append_of_after? {start t rest : Text} (h : after? start t = some rest) :
    t = start ++ rest := by
  induction start generalizing t with
  | nil => simpa [after?] using h
  | cons c start ih =>
    cases t with
    | nil => simp [after?] at h
    | cons d t =>
      simp only [after?] at h
      split at h
      · next hcd => rw [hcd, ih h]; rfl
      · simp at h

theorem eq_append_of_cut? {mark : Char} {t a b : Text} (h : cut? mark t = some (a, b)) :
    t = a ++ mark :: b := by
  induction t generalizing a with
  | nil => simp [cut?] at h
  | cons c t ih =>
    simp only [cut?] at h
    split at h
    · next hc => obtain ⟨rfl, rfl⟩ := by simpa using h
                 simp [hc]
    · obtain ⟨⟨a', b'⟩, ht, h'⟩ := Option.map_eq_some_iff.1 h
      obtain ⟨rfl, rfl⟩ := by simpa using h'
      simp [ih ht]

theorem cut?_append {mark : Char} {a : Text} (h : mark ∉ a) (b : Text) :
    cut? mark (a ++ mark :: b) = some (a, b) := by
  induction a with
  | nil => simp [cut?]
  | cons c a ih =>
    rw [List.mem_cons, not_or] at h
    simp [cut?, Ne.symm h.1, ih h.2]

/-- A character put in front of the first part leaves the second part alone. -/
theorem of_map_cons {c : Char} {o : Option (Text × Text)} {a b : Text}
    (h : o.map (fun (x, y) => (c :: x, y)) = some (a, b)) : ∃ a', o = some (a', b) ∧ a = c :: a' := by
  obtain ⟨⟨a', b'⟩, ho, h⟩ := Option.map_eq_some_iff.1 h
  obtain ⟨rfl, rfl⟩ := by simpa using h
  exact ⟨a', ho, rfl⟩

theorem head?_dropWhile {p : Char → Bool} (t : Text) : ∀ c ∈ (t.dropWhile p).head?, p c = false := by
  intro c hc
  have hnot := List.head?_dropWhile_not p t
  rw [Option.mem_def.1 hc] at hnot
  simpa using hnot

theorem length_dropWhile_le (p : Char → Bool) (t : Text) : (t.dropWhile p).length ≤ t.length :=
  (List.dropWhile_suffix p).length_le

end Text

end Spreadsheet
