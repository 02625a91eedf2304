import Spreadsheet.Text.Quoted

/-!
# Brackets

Round and square brackets of formula text, outside its literals. Matching keeps one depth for both
kinds, so a bracket of either kind closes the other. `enclosed?` finds the end of a bracket and
`topLevel` the commas outside all brackets.
-/

namespace Spreadsheet.Text

/-- An opening bracket of either kind. -/
def opens (c : Char) : Bool := c == '(' || c == '['

/-- A closing bracket of either kind. -/
def closes (c : Char) : Bool := c == ')' || c == ']'

theorem next_of_opens {c : Char} (h : opens c = true) : Mode.next .code c = .code := by
  simp only [opens, Bool.or_eq_true, beq_iff_eq] at h
  rcases h with rfl | rfl <;> rfl

theorem next_of_closes {c : Char} (h : closes c = true) : Mode.next .code c = .code := by
  simp only [closes, Bool.or_eq_true, beq_iff_eq] at h
  rcases h with rfl | rfl <;> rfl

theorem opens_of_closes {c : Char} (h : closes c = true) : opens c = false := by
  simp only [closes, Bool.or_eq_true, beq_iff_eq] at h
  rcases h with rfl | rfl <;> rfl

/-- What stands before the bracket that closes `depth + 1` open ones, and what stands behind it. -/
def enclosed? (m : Mode) (depth : Nat) : Text → Option (Text × Text)
  | [] => none
  | c :: t =>
    let inside (d : Nat) := (enclosed? (m.next c) d t).map fun (a, b) => (c :: a, b)
    if m = .code ∧ opens c then inside (depth + 1)
    else if m = .code ∧ closes c then
      match depth with
      | 0 => some ([], t)
      | d + 1 => inside d
    else inside depth

/-- The inside of a bracket whose opening character has just been read, and what follows it. -/
def bracketed? (t : Text) : Option (Text × Text) := enclosed? .code 0 t

/-- The parts between the commas that stand outside `depth` open brackets and all literals. A
closing bracket that nothing opened is text. -/
def split (m : Mode) (depth : Nat) : Text → List Text
  | [] => [[]]
  | c :: t =>
    if m = .code ∧ depth = 0 ∧ c = ',' then [] :: split .code 0 t
    else
      let depth :=
        if m = .code ∧ opens c then depth + 1 else if m = .code ∧ closes c then depth - 1 else depth
      match split (m.next c) depth t with
      | [] => [[c]]
      | part :: parts => (c :: part) :: parts

/-- The parts between the top-level commas of a text. -/
def topLevel (t : Text) : List Text := split .code 0 t

/-- The closing bracket is the only character lost. -/
theorem length_enclosed? {m : Mode} {d : Nat} {t a b : Text} (h : enclosed? m d t = some (a, b)) :
    a.length + b.length + 1 = t.length := by
  induction t generalizing m d a with
  | nil => simp [enclosed?] at h
  | cons c t ih =>
    have step : ∀ d', (enclosed? (m.next c) d' t).map (fun (a, b) => (c :: a, b)) = some (a, b) →
        a.length + b.length + 1 = (c :: t).length := by
      intro d' hd
      obtain ⟨a', ht, rfl⟩ := of_map_cons hd
      have := ih ht
      simp only [List.length_cons]
      omega
    simp only [enclosed?] at h
    split at h
    · exact step _ h
    · split at h
      · split at h
        · obtain ⟨rfl, rfl⟩ := by simpa using h
          simp
        · exact step _ h
      · exact step _ h

theorem length_bracketed? {t a b : Text} (h : bracketed? t = some (a, b)) :
    a.length + b.length + 1 = t.length := length_enclosed? h

theorem split_ne_nil (m : Mode) (d : Nat) (t : Text) : split m d t ≠ [] := by
  cases t with
  | nil => simp [split]
  | cons c t =>
    simp only [split]
    split
    · simp
    · split <;> simp

end Spreadsheet.Text
