import Spreadsheet.Toml.Item
import Spreadsheet.Toml.Quoted

/-!
# TOML documents

A document is read line by line into statements, and the statements are put together to a table.
`Table.ofText?` does both.
-/

namespace Spreadsheet.Toml

/-- Reads something from the front of a text. -/
abbrev Scan (α : Type) := StateT Text Option α

namespace Scan

/-- The next character, which stays where it is. -/
def peek : Scan (Option Char) := do return (← get).head?

/-- Takes the next character. -/
def skip : Scan Unit := modify List.tail

/-- Takes what must come next. -/
def expect (t : Text) : Scan Unit := fun s => (Text.after? t s).map ((), ·)

/-- Takes the characters of a class as far as they go. -/
def run (p : Char → Bool) : Scan Text := fun s => some (s.takeWhile p, s.dropWhile p)

/-- Takes tabs and spaces. -/
def spaces : Scan Unit := modify (·.dropWhile isSpace)

/-- Takes the rest of a line that says nothing more: spaces, a comment, and the line break unless the
document ends here. -/
def lineEnd : Scan Unit := do
  spaces
  if (← peek) = some '#' then modify (·.dropWhile isPlain)
  match ← get with
  | [] => pure ()
  | t => fun _ => (afterLineBreak? t).map ((), ·)

end Scan

open Spreadsheet.Toml.Scan

/-- The text without the blanks, line breaks and comments at its start; `comment` says that it starts
inside a comment. -/
def afterGap : (comment : Bool) → Text → Text
  | _, '\n' :: t => afterGap false t
  | _, '\r' :: '\n' :: t => afterGap false t
  | true, c :: t => if isPlain c then afterGap true t else c :: t
  | false, '#' :: t => afterGap true t
  | false, c :: t => if isSpace c then afterGap false t else c :: t
  | _, [] => []

/-- Digits with single underscores between them. The underscores are left out. -/
def digits? (p : Char → Bool) : Text → Option (Text × Text)
  | [] => none
  | [c] => if p c then some ([c], []) else none
  | c :: '_' :: t => if p c then (digits? p t).map fun (a, b) => (c :: a, b) else none
  | c :: d :: t =>
    if p c then
      if p d then (digits? p (d :: t)).map fun (a, b) => (c :: a, b) else some ([c], d :: t)
    else none

/-- The range of integers: 64 bits with a sign. -/
def integer? (n : Int) : Option Int :=
  if -Int.pow 2 63 ≤ n ∧ n < Int.pow 2 63 then some n else none

/-- An integer in another base, behind the letter that announces the base. -/
def radix (base : Nat) : Scan Item := do
  let isDigit (c : Char) := (Text.hexDigit? c).any (· < base)
  let ds ← digits? isDigit
  let n ← Text.inBase? base ds
  return .integer (← integer? n)

def sign : Scan Text := do
  match ← peek with
  | some '-' => skip; return ['-']
  | some '+' => skip; return ['+']
  | _ => return []

/-- A decimal number without a sign: a zero, or digits that start with none. -/
def wholePart : Scan Text := do
  if (← peek) = some '0' then
    skip
    return ['0']
  else digits? Text.isDigit

def fraction : Scan Text := do
  if (← peek) = some '.' then
    skip
    return '.' :: (← digits? Text.isDigit)
  else return []

def exponent : Scan Text := do
  if (← peek) = some 'e' ∨ (← peek) = some 'E' then
    skip
    let s ← sign
    return 'e' :: s ++ (← digits? Text.isDigit)
  else return []

def number : Scan Item := do
  match ← get with
  | '0' :: 'x' :: t => set t; radix 16
  | '0' :: 'o' :: t => set t; radix 8
  | '0' :: 'b' :: t => set t; radix 2
  | _ =>
    let s ← sign
    match ← peek with
    | some 'i' => expect "inf".toList; return .float (s ++ "inf".toList)
    | some 'n' => expect "nan".toList; return .float (s ++ "nan".toList)
    | _ =>
      let whole ← wholePart
      let tail := (← fraction) ++ (← exponent)
      if tail.isEmpty then
        let n : Int := Text.value whole
        return .integer (← integer? (if s = ['-'] then -n else n))
      else return .float (s ++ whole ++ tail)

/-- A part of a key: a string on one line, or a run of letters, digits, dashes and underscores. -/
def keyPart : Scan Text := do
  spaces
  let part ← match ← peek with
    | some '"' => do skip; line? '"'
    | some '\x27' => do skip; line? '\x27'
    | _ => do
      let t ← run fun c => Text.isLetter c || Text.isDigit c || c = '-' || c = '_'
      if t.isEmpty then failure else pure t
  spaces
  return part

/-- Parts of a key with dots between them: all but the last, and the last. -/
def keyParts : (room : Nat) → Scan (List Text × Text)
  | 0 => failure
  | room + 1 => do
    let part ← keyPart
    if (← peek) = some '.' then
      skip
      let (path, key) ← keyParts room
      return (part :: path, key)
    else return ([], part)

def key : Scan (List Text × Text) := do keyParts ((← get).length + 1)

/-- The items of an array up to its closing bracket. A last comma may stand alone. -/
def items (item : Scan Item) : (room : Nat) → Scan (List Item)
  | 0 => failure
  | room + 1 => do
    modify (afterGap false)
    if (← peek) = some ']' then
      skip
      return []
    else
      let i ← item
      modify (afterGap false)
      if (← peek) = some ',' then
        skip
        return i :: (← items item room)
      else
        expect [']']
        return [i]

def pair (item : Scan Item) : Scan (List Text × Text × Item) := do
  let (path, key) ← key
  expect ['=']
  spaces
  return (path, key, ← item)

/-- The pairs of an inline table up to its closing brace. -/
def pairs (item : Scan Item) : (room : Nat) → Scan (List (List Text × Text × Item))
  | 0 => failure
  | room + 1 => do
    let p ← pair item
    spaces
    if (← peek) = some ',' then
      skip
      return p :: (← pairs item room)
    else
      expect ['\x7d']
      return [p]

/-- The table that pairs make. -/
def inline? (ps : List (List Text × Text × Item)) : Option Table :=
  ps.foldlM (fun t (path, key, i) => Table.assign? path key i .inline t) []

/-- An item, given how to read the items inside it. -/
def itemAround (inner : Scan Item) : Scan Item := do
  match ← peek with
  | some '"' | some '\x27' => return .text (← quoted?)
  | some 't' => expect "true".toList; return .boolean true
  | some 'f' => expect "false".toList; return .boolean false
  | some '[' =>
    skip
    return .array (← items inner ((← get).length + 1))
  | some '\x7b' =>
    skip
    spaces
    if (← peek) = some '\x7d' then
      skip
      return .table .inline []
    else
      let ps ← pairs inner ((← get).length + 1)
      return .table .inline (← inline? ps)
  | _ => number

/-- An item of at most so many levels. -/
def item : (levels : Nat) → Scan Item
  | 0 => failure
  | levels + 1 => itemAround (item levels)

/-- The levels that an item may have: one, and one for each array or inline table around it. -/
def maxLevels : Nat := 80

/-- A line that says something. -/
def statement : Scan Statement := do
  if (← peek) = some '[' then
    skip
    let (path, key) ← key
    expect [']']
    lineEnd
    return .header path key
  else
    let (path, key, i) ← pair (item maxLevels)
    lineEnd
    return .entry path key i

def statements : (room : Nat) → Scan (List Statement)
  | 0 => failure
  | room + 1 => do
    spaces
    match ← peek with
    | none => return []
    | some c =>
      if c = '#' ∨ c = '\n' ∨ c = '\r' then
        lineEnd
        statements room
      else
        let s ← statement
        return s :: (← statements room)

/-- Reads a document. A byte order mark in front of it means nothing. -/
def Table.ofText? (t : Text) : Option Table := do
  let t := (Text.after? ['\ufeff'] t).getD t
  let (ss, _) ← StateT.run (statements (t.length + 1)) t
  ofStatements? ss

end Spreadsheet.Toml
