import Spreadsheet.Text.Blank

/-!
# Command lines

The arguments of the program, read from left to right. An option that takes a value takes the next
argument or what is attached to it. `read` ends in the arguments or in a reason to stop.
-/

namespace Spreadsheet.Command

/-- What the program is to do. -/
structure Arguments where
  formula : Option Text := none
  /-- Cells with the raw texts to give them, in order. -/
  cells : List (Text × Text) := []
  /-- Cells or areas with the tools to apply to them, in order. -/
  formats : List (Text × Text) := []
  print : Bool := false
  /-- List the functions and tools, and do nothing else. -/
  listFunctions : Bool := false
  config : Option Text := none
  noConfig : Bool := false
  /-- How often more logging was asked for. -/
  verbosity : Nat := 0
  deriving DecidableEq, Repr

/-- Why there is nothing to do. -/
inductive Stop
  | usage (message : Text)
  | help
  | version
  deriving DecidableEq, Repr

/-- An option without a value. -/
inductive Switch
  | print | listFunctions | noConfig | verbose | help | version
  deriving DecidableEq, Repr

/-- An option with a value. -/
inductive Parameter
  | formula | cell | format | config
  deriving DecidableEq, Repr

/-- The option that a letter behind a dash stands for. -/
def short? : Char → Option (Switch ⊕ Parameter)
  | 'c' => some (.inr .formula)
  | 'p' => some (.inl .print)
  | 'v' => some (.inl .verbose)
  | 'h' => some (.inl .help)
  | 'V' => some (.inl .version)
  | _ => none

/-- The option that a word behind two dashes stands for. -/
def long? (t : Text) : Option (Switch ⊕ Parameter) :=
  match String.ofList t with
  | "command" => some (.inr .formula)
  | "set" => some (.inr .cell)
  | "format" => some (.inr .format)
  | "print" => some (.inl .print)
  | "list-functions" => some (.inl .listFunctions)
  | "config" => some (.inr .config)
  | "no-config" => some (.inl .noConfig)
  | "verbose" => some (.inl .verbose)
  | "help" => some (.inl .help)
  | "version" => some (.inl .version)
  | _ => none

/-- The value of the option may start with a dash. -/
def Parameter.takesDash (p : Parameter) : Bool := p = .formula

/-- A target and a value with the first equals sign between them. The target may not be blank. -/
def assignment? (t : Text) : Option (Text × Text) := do
  let (target, value) ← Text.cut? '=' t
  if (Text.trim target).isEmpty then none else some (Text.trim target, value)

def unexpected (arg : Text) : Stop := .usage ("unexpected argument '".toList ++ arg ++ "'".toList)

def repeated : Stop := .usage "the option cannot be used multiple times".toList

def badValue (arg : Text) : Stop := .usage ("expected CELL=VALUE, got '".toList ++ arg ++ "'".toList)

namespace Arguments

/-- Takes in an option without a value. -/
def switch (a : Arguments) : Switch → Except Stop Arguments
  | .print => if a.print then .error repeated else .ok { a with print := true }
  | .listFunctions =>
    if a.listFunctions then .error repeated else .ok { a with listFunctions := true }
  | .noConfig => if a.noConfig then .error repeated else .ok { a with noConfig := true }
  | .verbose => .ok { a with verbosity := a.verbosity + 1 }
  | .help => .error .help
  | .version => .error .version

/-- Takes in the value of an option. -/
def give (a : Arguments) (value : Text) : Parameter → Except Stop Arguments
  | .formula => if a.formula.isSome then .error repeated else .ok { a with formula := some value }
  | .config =>
    if value.isEmpty then .error (badValue value)
    else if a.config.isSome then .error repeated
    else .ok { a with config := some value }
  | .cell => match assignment? value with
    | some p => .ok { a with cells := a.cells ++ [p] }
    | none => .error (badValue value)
  | .format => match assignment? value with
    | some p => .ok { a with formats := a.formats ++ [p] }
    | none => .error (badValue value)

end Arguments

/-- What the next argument may be. -/
inductive Expectation
  | option
  | value (p : Parameter)
  | nothing
  deriving DecidableEq, Repr

/-- The arguments so far, and what may come next. -/
abbrev Progress := Arguments × Expectation

/-- Takes in the letters behind a dash. The letter of an option with a value ends them: what is left is
that value, behind an equals sign or not. -/
def letters (a : Arguments) : Text → Except Stop Progress
  | [] => .ok (a, .option)
  | c :: t =>
    match short? c with
    | none => .error (unexpected ['-', c])
    | some (.inl s) => do letters (← a.switch s) t
    | some (.inr p) =>
      match t with
      | [] => .ok (a, .value p)
      | '=' :: t => do return (← a.give t p, .option)
      | t => do return (← a.give t p, .option)

/-- Takes in what stands behind two dashes: the name of an option, and perhaps its value. -/
def word (a : Arguments) (t : Text) : Except Stop Progress :=
  let (name, value) := match Text.cut? '=' t with
    | some (name, value) => (name, some value)
    | none => (t, none)
  match long? name, value with
  | some (.inl s), none => do return (← a.switch s, .option)
  | some (.inr p), none => .ok (a, .value p)
  | some (.inr p), some value => do return (← a.give value p, .option)
  | some (.inl _), some _ => .error (unexpected ('-' :: '-' :: t))
  | none, _ => .error (unexpected ('-' :: '-' :: t))

/-- Takes in one argument. Two dashes alone say that no more options follow, and nothing else is taken. -/
def step : Progress → Text → Except Stop Progress
  | (a, .option), '-' :: '-' :: [] => .ok (a, .nothing)
  | (a, .option), '-' :: '-' :: t => word a t
  | (a, .option), '-' :: c :: t => letters a (c :: t)
  | (_, .option), arg => .error (unexpected arg)
  | (a, .value p), arg => do
    match arg with
    | '-' :: _ :: _ =>
      if p.takesDash then return (← a.give arg p, .option)
      else throw (.usage "a value is required for the option".toList)
    | _ => return (← a.give arg p, .option)
  | (_, .nothing), arg => .error (unexpected arg)

def read (args : List Text) : Except Stop Arguments := do
  let (a, expectation) ← args.foldlM step ({}, .option)
  match expectation with
  | .value _ => throw (.usage "a value is required for the option".toList)
  | _ =>
    if a.noConfig ∧ a.config.isSome then
      throw (.usage "the option '--no-config' cannot be used with '--config'".toList)
    return a

def version : Text := "websheets 0.1.0\n".toList

def help : Text :=
  ("Evaluate spreadsheet formulas from the command line\n\n" ++
  "Usage: websheets [OPTIONS]\n\n" ++
  "Options:\n" ++
  "  -c, --command <FORMULA>    Evaluate one formula and print its value\n" ++
  "      --set <CELL=RAW>       Seed a cell before evaluating\n" ++
  "      --format <CELLS=TOOL>  Apply a formatting wrapper to a cell or range\n" ++
  "  -p, --print                Print the rendered sheet as a Markdown table\n" ++
  "      --list-functions       List built-in functions and formatting wrappers\n" ++
  "      --config <PATH>        Config file to use instead of the default location\n" ++
  "      --no-config            Ignore any config file\n" ++
  "  -v, --verbose...           More logging on stderr\n" ++
  "  -h, --help                 Print help\n" ++
  "  -V, --version              Print version\n").toList

end Spreadsheet.Command
