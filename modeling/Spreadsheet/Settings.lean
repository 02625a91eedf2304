import Spreadsheet.Sheet.Basic
import Spreadsheet.Text.Blank
import Spreadsheet.Toml.Document

/-!
# Settings

A settings file is a TOML document with the size of a new sheet, how much is logged, and what is asked
for when content is generated. A setting that is left out has its default, and there are no others.
-/

namespace Spreadsheet

/-- How much is logged. -/
inductive LogLevel
  | off | error | warn | info | debug | trace
  deriving DecidableEq, Repr

namespace LogLevel

def all : List LogLevel := [off, error, warn, info, debug, trace]

def name : LogLevel → Text
  | off => "OFF".toList
  | error => "ERROR".toList
  | warn => "WARN".toList
  | info => "INFO".toList
  | debug => "DEBUG".toList
  | trace => "TRACE".toList

/-- The level that a text names, in capitals or not and with blanks around it or not. -/
def ofText? (t : Text) : Option LogLevel :=
  all.find? fun l => l.name = (Text.trim t).map Char.toUpper

theorem ofText?_name (l : LogLevel) : ofText? l.name = some l := by cases l <;> decide

end LogLevel

/-- What a settings file sets. -/
structure Settings where
  options : Options := {}
  /-- The log level as it is written. -/
  logText : Text := "warn".toList
  logLevel : LogLevel := .warn
  deriving DecidableEq, Repr

namespace Settings

/-- Why a settings file cannot be used. -/
inductive Error
  /-- There is no such file, or it is not text. -/
  | unreadable
  /-- It is no TOML document, or one with other keys or other types. -/
  | malformed
  | unknownLevel (t : Text)
  deriving DecidableEq, Repr

/-- The message for the settings file at a path. -/
def Error.message (path : Text) : Error → Text
  | unreadable => "IO error reading ".toList ++ path
  | malformed => "Invalid config ".toList ++ path
  | unknownLevel t =>
    "Unknown log level '".toList ++ t ++
      "' (expected off, error, warn, info, debug or trace)".toList

open Toml (Item Table)

/-- The greatest number of rows or columns. -/
def maxCount : Nat := Nat.pow 2 64 - 1

/-- The greatest number of tokens that may be asked for. -/
def maxTokens : Nat := Nat.pow 2 32 - 1

/-- A count up to a bound. -/
def count? (bound : Nat) : Item → Option Nat
  | .integer n => if 0 ≤ n ∧ n ≤ bound then some n.toNat else none
  | _ => none

def text? : Item → Option Text
  | .text t => some t
  | _ => none

def setGeneration? (o : Options) : Text × Item → Option Options
  | (key, i) => match String.ofList key with
    | "model" => (text? i).map fun t => { o with model := t }
    | "max_output_tokens" => (count? maxTokens i).map fun n => { o with maxOutputTokens := n }
    | "prompt" => (text? i).map fun t => { o with prompt := t }
    | _ => none

/-- The keys about generated content, in the order that a list without keys is read in. -/
def generationKeys : List Text := ["model".toList, "max_output_tokens".toList, "prompt".toList]

/-- Sets all that is said about generated content, by a table or by a list without keys. -/
def generation? (o : Options) : Item → Option Options
  | .table _ t => t.foldlM setGeneration? o
  | .array items => (generationKeys.zip items).foldlM setGeneration? o
  | _ => none

def set? (s : Settings) : Text × Item → Option Settings
  | (key, i) => match String.ofList key with
    | "rows" => (count? maxCount i).map fun n => { s with options := { s.options with rows := n } }
    | "cols" => (count? maxCount i).map fun n => { s with options := { s.options with cols := n } }
    | "log_level" => (text? i).map fun t => { s with logText := t }
    | "generation" => (generation? s.options i).map fun o => { s with options := o }
    | _ => none

/-- The settings that a document makes. -/
def ofText (t : Text) : Except Error Settings :=
  match Table.ofText? t >>= fun table => table.foldlM set? {} with
  | none => .error .malformed
  | some s =>
    match LogLevel.ofText? s.logText with
    | none => .error (.unknownLevel s.logText)
    | some l => .ok { s with logLevel := l }

/-- The settings that the bytes of a file make, if there is such a file. -/
def ofFile (bytes : Option ByteArray) : Except Error Settings :=
  match bytes.bind String.fromUTF8? with
  | none => .error .unreadable
  | some t => ofText t.toList

end Settings

end Spreadsheet
