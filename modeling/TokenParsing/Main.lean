import TokenParsing.CommandLine.Calculator
import TokenParsing.CommandLine.Settings

/-!
# The program

The first argument names the tool to run, the others are the tool's own.
-/

namespace TokenParsing.CommandLine

/-- The reason for a failed reading. A code is the system's number, or that number negated. -/
def readError (e : IO.Error) : ReadError :=
  match e with
  | .noFileOrDirectory .. => .notFound
  | .inappropriateType _ code _ => if code = 20 ∨ code = -20 then .notDirectory else .isDirectory
  | .invalidArgument _ code _ => if code = 36 ∨ code = -36 then .nameTooLong else .other (toString e)
  | _ => .other (toString e)

/-- Reads a file as a text. -/
def readText (name : String) : IO (Except ReadError String) := do
  try
    return decodeText (← IO.FS.readBinFile name)
  catch e =>
    return .error (readError e)

/-- Prints what a run leaves behind and gives its exit code. -/
def finish (t : Transcript) : IO UInt32 := do
  (← IO.getStdout).putStr t.out
  (← IO.getStderr).putStr t.err
  return t.exit.toUInt32

/-- Runs the tool that the first argument names. -/
def runTool (arguments : List String) : IO UInt32 := do
  match arguments with
  | "calculator" :: rest => finish (Calculator.run rest)
  | "settings" :: rest =>
    match Settings.request? rest with
    | some { file := some name, .. } =>
      let text ← readText name
      finish (Settings.run (fun _ => text) rest)
    | _ => finish (Settings.run (fun _ => .error .notFound) rest)
  | _ => finish (refused "calculator ARGS... or settings ARGS...")

end TokenParsing.CommandLine

/-- Runs the tool that the first argument names. -/
def main (arguments : List String) : IO UInt32 :=
  TokenParsing.CommandLine.runTool arguments
