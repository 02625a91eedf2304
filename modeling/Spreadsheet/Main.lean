import Spreadsheet.Command.Run

/-!
# The program

Finds the settings file, runs the command line and prints the report.
-/

namespace Spreadsheet.Command

def readBytes (path : String) : IO (Option ByteArray) := do
  try
    return some (← IO.FS.readBinFile path)
  catch _ => return none

def usualPath : IO (Option String) := do
  let folder ← match ← IO.getEnv "XDG_CONFIG_HOME" with
    | some folder => pure (if folder.startsWith "/" then some folder else none)
    | none => pure none
  match folder, ← IO.getEnv "HOME" with
  | some folder, _ => return some (folder ++ "/websheets/config.toml")
  | none, some home => return some (home ++ "/.config/websheets/config.toml")
  | none, none => return none

/-- The settings file that the arguments ask for. -/
def settingsFile (a : Arguments) : IO (Option File) := do
  match a.source with
  | .defaults => return none
  | .path t => return some ⟨t, ← readBytes (String.ofList t)⟩
  | .usual =>
    match ← usualPath with
    | none => return none
    | some path =>
      return (← readBytes path).map fun bytes => ⟨path.toList, some bytes⟩

/-- The program. It exits with the code of the report, or with 2 if the command line is not
understood. -/
def program (args : List String) : IO UInt32 := do
  match read (args.map String.toList) with
  | .error .help =>
    IO.print (String.ofList help)
    return 0
  | .error .version =>
    IO.print (String.ofList version)
    return 0
  | .error (.usage message) =>
    IO.eprintln ("error: " ++ String.ofList message)
    return 2
  | .ok a =>
    let report := run a (← settingsFile a)
    IO.print (String.ofList report.output)
    if let some e := report.error then IO.eprintln ("Error: " ++ String.ofList e)
    return report.code.toUInt32

end Spreadsheet.Command

def main (args : List String) : IO UInt32 := Spreadsheet.Command.program args
