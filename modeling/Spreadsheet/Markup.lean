import Spreadsheet.Text.Blank

/-!
# Markup

Formatting lives in the raw text of a cell as calls around its content: `bold(x)`,
`textColor(red, bold(x))`. A wrapper writes one layer; `Styled.parse` peels all layers off and collects
the style. Only parentheses count, because content is plain text.
-/

namespace Spreadsheet

inductive Align
  | left | center | right
  deriving DecidableEq, Repr

/-- One layer of formatting. -/
inductive Wrapper
  | bold | italic | underline
  | align (a : Align)
  | textColor (color : Text)
  | bgColor (color : Text)
  deriving DecidableEq, Repr

namespace Wrapper

def names : List Text :=
  ["bold", "italic", "underline", "left", "center", "right", "textColor", "bgColor"].map String.toList

def name : Wrapper → Text
  | bold => "bold".toList
  | italic => "italic".toList
  | underline => "underline".toList
  | align .left => "left".toList
  | align .center => "center".toList
  | align .right => "right".toList
  | textColor _ => "textColor".toList
  | bgColor _ => "bgColor".toList

def color? : Wrapper → Option Text
  | textColor c | bgColor c => some c
  | _ => none

/-- Writes a wrapper around content. -/
def apply (w : Wrapper) (content : Text) : Text :=
  let color := match w.color? with
    | some c => c ++ [',', ' ']
    | none => []
  w.name ++ '(' :: color ++ content ++ [')']

/-- A wrapper as a tool: its name, and its color behind a colon. -/
def tool (w : Wrapper) : Text :=
  match w.color? with
  | some c => w.name ++ ':' :: c
  | none => w.name

def plain? (n : Text) : Option Wrapper :=
  [bold, italic, underline, align .left, align .center, align .right].find? (·.name == n)

def colored? (n : Text) : Option (Text → Wrapper) :=
  if n = "textColor".toList then some textColor
  else if n = "bgColor".toList then some bgColor
  else none

/-- Parentheses that close no more than `depth` open ones, all of which are closed in the end, with
no comma outside them. -/
def oneArgument (depth : Nat) : Text → Bool
  | [] => depth == 0
  | c :: t =>
    if c = '(' then oneArgument (depth + 1) t
    else if c = ')' then
      match depth with
      | 0 => false
      | d + 1 => oneArgument d t
    else if c = ',' ∧ depth = 0 then false
    else oneArgument depth t

/-- A color reads back as one argument: its parentheses match, and it has no comma outside them. -/
def isColor (c : Text) : Bool := !c.isEmpty && oneArgument 0 c

/-- Reads a tool: a name, or a name with a color behind a colon. -/
def ofTool? (s : Text) : Option Wrapper :=
  match Text.cut? ':' s with
  | none => plain? (Text.trim s)
  | some (n, c) => do
    let w ← colored? (Text.trim n)
    if isColor (Text.trim c) then some (w (Text.trim c)) else none

def toolMessage (s : Text) : Text := "Unknown formatting tool: ".toList ++ s

end Wrapper

/-- The attributes that the layers around a content give it. -/
structure Style where
  bold : Bool := false
  italic : Bool := false
  underline : Bool := false
  align : Option Align := none
  textColor : Option Text := none
  bgColor : Option Text := none
  deriving DecidableEq, Repr, Inhabited

/-- Adds a layer further in; an alignment or color that is set already stays. -/
def Style.add (s : Style) : Wrapper → Style
  | .bold => { s with bold := true }
  | .italic => { s with italic := true }
  | .underline => { s with underline := true }
  | .align a => { s with align := s.align.or (some a) }
  | .textColor c => { s with textColor := s.textColor.or (some c) }
  | .bgColor c => { s with bgColor := s.bgColor.or (some c) }

namespace Markup

/-- What stands before the parenthesis that closes `depth + 1` open ones, and what stands behind it. -/
def enclosed? (depth : Nat) : Text → Option (Text × Text)
  | [] => none
  | c :: t =>
    let inside (d : Nat) := (enclosed? d t).map fun (a, b) => (c :: a, b)
    if c = '(' then inside (depth + 1)
    else if c = ')' then
      match depth with
      | 0 => some ([], t)
      | d + 1 => inside d
    else inside depth

/-- The text before the first comma outside `depth` open parentheses, and the text behind it. -/
def firstArgument? (depth : Nat) : Text → Option (Text × Text)
  | [] => none
  | c :: t =>
    if c = ',' ∧ depth = 0 then some ([], t)
    else
      let depth := if c = '(' then depth + 1 else if c = ')' then depth - 1 else depth
      (firstArgument? depth t).map fun (a, b) => (c :: a, b)

/-- The text without one space at its start. -/
def dropSpace : Text → Text
  | ' ' :: t => t
  | t => t

/-- Takes one layer off, if the whole text is a wrapper around something. -/
def peel? (raw : Text) : Option (Wrapper × Text) := do
  let (n, t) ← Text.cut? '(' raw
  let (inner, rest) ← enclosed? 0 t
  if !rest.isEmpty then none
  else
    match Wrapper.plain? n, Wrapper.colored? n with
    | some w, _ => some (w, inner)
    | none, some w => do
      let (color, content) ← firstArgument? 0 inner
      some (w (Text.trim color), dropSpace content)
    | none, none => none

theorem length_enclosed? {d : Nat} {t a b : Text} (h : enclosed? d t = some (a, b)) :
    a.length + b.length + 1 = t.length := by
  induction t generalizing d a with
  | nil => simp [enclosed?] at h
  | cons c t ih =>
    have step : ∀ d', (enclosed? d' t).map (fun (a, b) => (c :: a, b)) = some (a, b) →
        a.length + b.length + 1 = (c :: t).length := by
      intro d' hd
      obtain ⟨a', ht, rfl⟩ := Text.of_map_cons hd
      have := ih ht
      simp only [List.length_cons]
      omega
    simp only [enclosed?] at h
    split at h
    · exact step _ h
    · split at h
      · split at h
        · obtain ⟨rfl, rfl⟩ := by simpa using h
          simp
        · exact step _ h
      · exact step _ h

theorem length_firstArgument? {d : Nat} {t a b : Text} (h : firstArgument? d t = some (a, b)) :
    b.length < t.length := by
  induction t generalizing d a with
  | nil => simp [firstArgument?] at h
  | cons c t ih =>
    simp only [firstArgument?] at h
    split at h
    · obtain ⟨-, rfl⟩ := by simpa using h
      simp
    · obtain ⟨a', ht, -⟩ := Text.of_map_cons h
      exact Nat.lt_succ_of_lt (ih ht)

theorem length_dropSpace_le (t : Text) : (dropSpace t).length ≤ t.length := by
  unfold dropSpace
  split <;> simp

theorem length_peel? {raw content : Text} {w : Wrapper} (h : peel? raw = some (w, content)) :
    content.length < raw.length := by
  obtain ⟨⟨n, t⟩, hc, h⟩ := Option.bind_eq_some_iff.1 h
  obtain ⟨⟨inner, rest⟩, he, h⟩ := Option.bind_eq_some_iff.1 h
  have hraw := congrArg List.length (Text.eq_append_of_cut? hc)
  have hin := length_enclosed? he
  simp only [List.length_append, List.length_cons] at hraw
  simp only at h
  split at h
  · simp at h
  · split at h
    · obtain ⟨-, rfl⟩ := by simpa using h
      omega
    · obtain ⟨⟨color, c⟩, hf, h⟩ := Option.bind_eq_some_iff.1 h
      obtain ⟨-, rfl⟩ := by simpa using h
      have := length_firstArgument? hf
      have := length_dropSpace_le c
      omega
    · simp at h

/-- The layers around a content, outermost first, and the content. -/
def peelAll (raw : Text) : List Wrapper × Text :=
  match h : peel? raw with
  | none => ([], raw)
  | some (w, inner) =>
    have := length_peel? h
    let (ws, content) := peelAll inner
    (w :: ws, content)
termination_by raw.length

end Markup

/-- A raw text taken apart: its layers of formatting, outermost first, and what they are around. -/
structure Styled where
  layers : List Wrapper
  content : Text
  deriving DecidableEq, Repr

namespace Styled

def parse (raw : Text) : Styled :=
  let (layers, content) := Markup.peelAll raw
  ⟨layers, content⟩

def style (s : Styled) : Style := s.layers.foldl Style.add {}

/-- Writes the layers around another content, the innermost first. -/
def rewrap (s : Styled) (content : Text) : Text := s.layers.foldr Wrapper.apply content

end Styled

end Spreadsheet
