import Spreadsheet.Command.Arguments
import Spreadsheet.Settings
import Spreadsheet.Sheet.Markdown
import Spreadsheet.Sheet.Tool

/-!
# Running a command line

A run makes a sheet of the settings, fills and formats it, and then evaluates a formula, prints the
sheet, or both. It is a function of the arguments and of the settings file, and ends in a `Report`.
-/

namespace Spreadsheet.Command

/-- How a run ends. -/
structure Report where
  code : Nat
  output : Text := []
  error : Option Text := none
  deriving DecidableEq, Repr

/-- Where the settings are to be found. -/
inductive Source
  | defaults
  | path (t : Text)
  /-- The usual place, where there need not be a file. -/
  | usual
  deriving DecidableEq, Repr

/-- Where to look for the settings. -/
def Arguments.source (a : Arguments) : Source :=
  if a.noConfig then .defaults
  else match a.config with
    | some t => .path t
    | none => .usual

/-- A settings file: its path and its bytes, if they can be read. -/
structure File where
  path : Text
  bytes : Option ByteArray

def settings : Option File → Except Text Settings
  | none => .ok {}
  | some f => (Settings.ofFile f.bytes).mapError (Settings.Error.message f.path)

/-- The cell that a token names, or a message about what there is. -/
def locate (s : Sheet) (token : Text) : Except Text Cell :=
  match s.grid.locate? token with
  | some c => .ok c
  | none => .error ("no cell ".toList ++ token ++ " in a sheet with ".toList ++
      Text.decimal s.grid.height ++ " rows and columns ".toList ++
      Text.join [','] s.grid.headers)

/-- Selects a cell, or the area between two cells with a colon between them. -/
def select (s : Sheet) (target : Text) : Except Text Sheet :=
  match Text.cut? ':' target with
  | none => do
    let c ← locate s target
    (s.select c).mapError Sheet.Error.message
  | some (first, last) => do
    let a ← locate s (Text.trim first)
    let b ← locate s (Text.trim last)
    let s ← (s.select a).mapError Sheet.Error.message
    (s.extend b).mapError Sheet.Error.message

def fill (s : Sheet) : Text × Text → Except Text Sheet
  | (target, raw) => do
    let c ← locate s target
    (s.setCell c raw).mapError Sheet.Error.message

def applyFormat (s : Sheet) : Text × Text → Except Text Sheet
  | (target, tool) =>
    match Wrapper.ofTool? tool with
    | none => .error (Wrapper.toolMessage tool)
    | some w => do
      let s ← select s target
      let (s, _) ← (s.format w).mapError Sheet.Error.message
      return s

/-- The sheet to work on. -/
def prepare (a : Arguments) (o : Options) : Except Text Sheet := do
  let s ← a.cells.foldlM fill (Sheet.new o)
  a.formats.foldlM applyFormat s

/-- A name in a column of its own. -/
def listed (name description : Text) : Text :=
  "  ".toList ++ name ++ List.replicate (8 - name.length) ' ' ++ ' ' :: description ++ ['\n']

def overview : Text :=
  "Functions:\n".toList ++
    Script.Function.all.flatMap (fun f => listed f.name f.description.toList) ++
    listed Formula.generationName "Generate cell content: LLM(prompt, model)".toList ++
    "\nFormatting wrappers:\n".toList ++
    Wrapper.names.flatMap fun n => "  ".toList ++ n ++ ['\n']

/-- A formula, whose equals sign may be left out. -/
def formula (t : Text) : Text :=
  match t with
  | '=' :: _ => t
  | _ => '=' :: t

/-- Works on a sheet: the value of the formula comes before the table. -/
def work (a : Arguments) (s : Sheet) : Report :=
  let outcome := a.formula.map fun t => s.setting.evaluateDetached (formula t)
  let value := (outcome.map fun o => o.display ++ ['\n']).getD []
  let table := if a.print || a.formula.isNone then s.markdown.2 else []
  { code := if outcome.any (·.isError) then 1 else 0, output := value ++ table }

def run (a : Arguments) (file : Option File) : Report :=
  match settings file with
  | .error e => { code := 1, error := some e }
  | .ok settings =>
    if a.listFunctions then { code := 0, output := overview }
    else match prepare a settings.options with
      | .error e => { code := 1, error := some e }
      | .ok s => work a s

end Spreadsheet.Command
