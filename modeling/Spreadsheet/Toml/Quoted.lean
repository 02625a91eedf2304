import Spreadsheet.Text.Hex

/-!
# TOML strings

A string stands between single or double marks, or between three of them and may then run over several
lines. Only double marks give the backslash a meaning.
-/

namespace Spreadsheet.Toml

def isSpace (c : Char) : Bool := c = ' ' || c = '\t'

/-- A character that may stand for itself in a string or a comment: a tab, or none of the ASCII control
characters. -/
def isPlain (c : Char) : Bool := c = '\t' || (0x20 ≤ c.toNat && c.toNat ≠ 0x7F)

/-- The text behind one line break at its start. -/
def afterLineBreak? : Text → Option Text
  | '\n' :: t => some t
  | '\r' :: '\n' :: t => some t
  | _ => none

/-- The text without the spaces and line breaks at its start. -/
def afterBlankLines : Text → Text
  | '\n' :: t => afterBlankLines t
  | '\r' :: '\n' :: t => afterBlankLines t
  | c :: t => if isSpace c then afterBlankLines t else c :: t
  | [] => []

/-- The character that an escape stands for, given the text behind its backslash. -/
def escaped? : Text → Option (Char × Text)
  | 'b' :: t => some ('\x08', t)
  | 't' :: t => some ('\t', t)
  | 'n' :: t => some ('\n', t)
  | 'f' :: t => some ('\x0c', t)
  | 'r' :: t => some ('\r', t)
  | '"' :: t => some ('"', t)
  | '\\' :: t => some ('\\', t)
  | 'u' :: t => Text.charOfHex? 4 t
  | 'U' :: t => Text.charOfHex? 8 t
  | _ => none

/-- The text behind a backslash that ends its line: the line break and all blanks are left out. -/
def continued? (t : Text) : Option Text :=
  (afterLineBreak? (t.dropWhile isSpace)).map afterBlankLines

theorem length_afterLineBreak? {t u : Text} (h : afterLineBreak? t = some u) : u.length < t.length := by
  unfold afterLineBreak? at h
  split at h
  · obtain rfl := Option.some.inj h
    exact Nat.lt_succ_self _
  · obtain rfl := Option.some.inj h
    exact Nat.lt_succ_of_lt (Nat.lt_succ_self _)
  · simp at h

theorem length_afterBlankLines_le (t : Text) : (afterBlankLines t).length ≤ t.length := by
  fun_induction afterBlankLines t <;> simp_all <;> omega

theorem length_escaped? {t u : Text} {c : Char} (h : escaped? t = some (c, u)) : u.length < t.length := by
  unfold escaped? at h
  split at h
  all_goals first
    | (obtain ⟨-, rfl⟩ := by simpa using h
       simp)
    | exact Nat.lt_succ_of_le (Text.length_charOfHex? h)
    | simp at h

theorem length_continued? {t u : Text} (h : continued? t = some u) : u.length < t.length := by
  obtain ⟨v, hv, rfl⟩ := Option.map_eq_some_iff.1 h
  have := length_afterLineBreak? hv
  have := length_afterBlankLines_le v
  have := Text.length_dropWhile_le isSpace t
  omega

/-- The characters of a string on one line up to its closing mark, and what follows. -/
def line? (mark : Char) (t : Text) : Option (Text × Text) :=
  match t with
  | [] => none
  | c :: t =>
    if c = mark then some ([], t)
    else if c = '\\' ∧ mark = '"' then
      match h : escaped? t with
      | none => none
      | some (e, u) =>
        have := length_escaped? h
        (line? mark u).map fun (a, b) => (e :: a, b)
    else if isPlain c then (line? mark t).map fun (a, b) => (c :: a, b)
    else none
termination_by t.length
decreasing_by all_goals simp only [List.length_cons]; omega

/-- The marks that belong to a string although its three closing marks have begun: up to two more marks
may follow, and then the last three close. -/
def closing (mark : Char) (t : Text) : Text × Text :=
  let n := min 2 ((t.takeWhile (· = mark)).length)
  (t.take n, t.drop n)

/-- The characters of a string over several lines up to its three closing marks, and what follows. A line
break is a line feed, however it is written. -/
def lines? (mark : Char) (t : Text) : Option (Text × Text) :=
  match t with
  | [] => none
  | c :: t =>
    match Text.after? [mark, mark, mark] (c :: t) with
    | some rest => some (closing mark rest)
    | none =>
      if c = '\\' ∧ mark = '"' then
        match h : continued? t with
        | some u =>
          have := length_continued? h
          lines? mark u
        | none =>
          match h : escaped? t with
          | none => none
          | some (e, u) =>
            have := length_escaped? h
            (lines? mark u).map fun (a, b) => (e :: a, b)
      else if isPlain c then (lines? mark t).map fun (a, b) => (c :: a, b)
      else
        match h : afterLineBreak? (c :: t) with
        | none => none
        | some u =>
          have := length_afterLineBreak? h
          (lines? mark u).map fun (a, b) => ('\n' :: a, b)
termination_by t.length
decreasing_by all_goals simp only [List.length_cons] at *; omega

/-- The characters of a string, and what follows; a line break right behind three opening marks is left
out. -/
def quoted? (t : Text) : Option (Text × Text) :=
  match t with
  | [] => none
  | mark :: t =>
    if mark = '"' ∨ mark = '\x27' then
      match Text.after? [mark, mark] t with
      | some rest => lines? mark ((afterLineBreak? rest).getD rest)
      | none => line? mark t
    else none

end Spreadsheet.Toml
