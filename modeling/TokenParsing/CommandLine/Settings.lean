import TokenParsing.CommandLine.Basic
import TokenParsing.Report
import TokenParsing.Settings.Grammar

/-!
# The settings tool

Reads a settings file, or a fixed sample, and lists its entries with their lines, or shows why it cannot be read.
-/

namespace TokenParsing.CommandLine.Settings

open TokenParsing.Settings

/-- What a user asks for. -/
structure Request where
  /-- The name of the file to read. -/
  file : Option String := none
  /-- Whether a failure is shown as a diagnostic. -/
  diagnostic : Bool := false
  /-- Whether only the version is shown. -/
  version : Bool := false
  deriving DecidableEq, Repr

/-- The request with the name of its file, which it may have once. -/
def Request.withFile (name : String) (r : Request) : Option Request :=
  match r.file with
  | none => some { r with file := some name }
  | some _ => none

/-- The request that arguments make. Options may stand before and after the name, up to an argument `--`. -/
def request? : List String → Option Request
  | [] => some {}
  | argument :: rest =>
    if argument = "--" then
      match rest with
      | [] => some {}
      | [name] => some { file := some name }
      | _ => none
    else if argument = "--fancy" then
      (request? rest).map fun r => { r with diagnostic := true }
    else if argument = "--version" ∨ argument = "-V" then
      some { version := true }
    else if argument.startsWith "-" ∧ argument ≠ "-" then
      none
    else
      (request? rest).bind (Request.withFile argument)

/-- The settings read when no file is named. -/
def sample : String :=
  "# demo settings\nname = \"parser-framework\"\nport = 8080\ndebug = true\n\n" ++
    "retries = -3   # negative numbers are fine\n"

/-- A value and its kind, for a reader. -/
def showValue : Value → String
  | .string s => Text.quoted s ++ " (string)"
  | .integer n => toString n ++ " (integer)"
  | .boolean b => (if b then "true" else "false") ++ " (boolean)"

/-- A number in a column of at least three characters, to the right. -/
def column (n : Nat) : String :=
  let digits := (toString n).toList
  String.ofList (List.replicate (3 - digits.length) ' ' ++ digits)

/-- An entry on the line it has in a text. -/
def showEntry (index : LineIndex) (e : Entry) : String :=
  line ("  line " ++ column (index.position e.span.start).line ++ ": " ++ e.key ++ " = " ++ showValue e.value)

/-- What is shown of a text under a name. -/
def showText (diagnostic : Bool) (name text : String) : Transcript :=
  let heading := line "=== Settings Parser ===" ++ line "" ++ line ("Input: " ++ name) ++ line rule
  match parse text with
  | .ok settings =>
    let entries := settings.entries.map (showEntry (.ofText text))
    ⟨0, heading ++ String.join entries ++ line "" ++ line (toString settings.entries.length ++ " entries"), ""⟩
  | .error f =>
    if diagnostic then
      ⟨1, heading, finalError (f.diagnostic text)⟩
    else
      ⟨1, heading, line (f.report text) ++ finalError { message := name ++ " is not a valid settings file" }⟩

/-- Runs the tool on the files that `read` gives. A file that cannot be read is reported before anything is shown. -/
def run (read : String → Except ReadError String) (arguments : List String) : Transcript :=
  match request? arguments with
  | none => refused "simple-parser [--fancy] [FILE]"
  | some r =>
    if r.version then
      ⟨0, line "simple-parser 0.1.0", ""⟩
    else
      match r.file with
      | none => showText r.diagnostic "sample" sample
      | some name =>
        match read name with
        | .ok text => showText r.diagnostic name text
        | .error e => ⟨1, "", finalError { message := e.message }⟩

end TokenParsing.CommandLine.Settings
