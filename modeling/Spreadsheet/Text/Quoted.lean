import Spreadsheet.Text.Basic

/-!
# Double-quoted literals

Formula text is code and double-quoted literals in turn. A backslash inside a literal takes the next
character with it, and a literal that is never closed runs to the end. `pieces` cuts a text into its
code and its literals and loses nothing (`flatten_pieces`); `quote` writes a text as one literal.
-/

namespace Spreadsheet.Text

/-- Where a reader stands: in code, inside a literal, or behind a backslash inside a literal. -/
inductive Mode
  | code
  | literal
  | escape
  deriving DecidableEq, Repr

/-- Where a reader stands after one more character. -/
def Mode.next : Mode → Char → Mode
  | .code, c => if c = '"' then .literal else .code
  | .literal, c => if c = '"' then .code else if c = '\\' then .escape else .literal
  | .escape, _ => .literal

/-- Where a reader stands after a whole text. -/
def Mode.run (m : Mode) (t : Text) : Mode := t.foldl Mode.next m

/-- Cuts behind the quote that closes a literal, given the text behind its opening quote. -/
def splitLiteral : Text → Text × Text
  | [] => ([], [])
  | '"' :: t => (['"'], t)
  | '\\' :: c :: t => let (a, b) := splitLiteral t; ('\\' :: c :: a, b)
  | c :: t => let (a, b) := splitLiteral t; (c :: a, b)

/-- The two parts of a split literal make up the text. -/
theorem splitLiteral_append (t : Text) : (splitLiteral t).1 ++ (splitLiteral t).2 = t := by
  fun_induction splitLiteral t <;> simp_all

theorem length_splitLiteral_le (t : Text) : (splitLiteral t).2.length ≤ t.length := by
  have := congrArg List.length (splitLiteral_append t)
  simp only [List.length_append] at this
  omega

/-- A stretch of formula text. -/
inductive Piece
  /-- Text outside the literals. -/
  | code (text : Text)
  /-- A literal with its quotes and escapes. -/
  | quoted (text : Text)
  deriving DecidableEq, Repr

def Piece.text : Piece → Text
  | .code t => t
  | .quoted t => t

/-- The literals with the code in front of each, empty or not, and the code behind the last one if there is any. -/
def pieces (s : Text) : List Piece :=
  match _hrest : s.dropWhile (· != '"') with
  | [] => if s.isEmpty then [] else [.code s]
  | c :: t => .code (s.takeWhile (· != '"')) :: .quoted (c :: (splitLiteral t).1) :: pieces (splitLiteral t).2
termination_by s.length
decreasing_by
  have hle := length_dropWhile_le (· != '"') s
  rw [_hrest, List.length_cons] at hle
  exact Nat.lt_of_le_of_lt (length_splitLiteral_le t) hle

/-- Cutting into pieces loses nothing. -/
theorem flatten_pieces (s : Text) : (pieces s).flatMap Piece.text = s := by
  fun_induction pieces s with
  | case1 s _ hempty => simp [List.isEmpty_iff.1 hempty]
  | case2 s => simp [Piece.text]
  | case3 s c t hdrop ih =>
    simp only [List.flatMap_cons, Piece.text, ih, List.cons_append, splitLiteral_append, ← hdrop,
      List.takeWhile_append_dropWhile]

/-- The text with its code changed by `f` and its literals as they are. -/
def mapCode (f : Text → Text) (s : Text) : Text :=
  (pieces s).flatMap fun
    | .code t => f t
    | .quoted t => t

/-- How a character is written inside a literal. -/
def escape : Char → Text
  | '"' => ['\\', '"']
  | '\\' => ['\\', '\\']
  | '\n' => ['\\', 'n']
  | '\r' => ['\\', 'r']
  | '\t' => ['\\', 't']
  | c => [c]

/-- A text written as one literal. -/
def quote (t : Text) : Text := '"' :: t.flatMap escape ++ ['"']

end Spreadsheet.Text
