import TokenParsing.Diagnostic

/-!
# Command lines

A command line tool as a function: its arguments and the files it may read decide what it prints and how it exits.
-/

namespace TokenParsing.CommandLine

/-- What a run of a tool leaves behind. -/
structure Transcript where
  /-- The exit code. -/
  exit : Nat
  /-- The text on standard output. -/
  out : String
  /-- The text on standard error. -/
  err : String
  deriving DecidableEq, Repr

/-- Why a file cannot be read as a text. -/
inductive ReadError where
  /-- There is no such file. -/
  | notFound
  /-- The path goes on where it has already reached a file. -/
  | notDirectory
  /-- The path leads to a directory. -/
  | isDirectory
  /-- The path, or a name in it, takes more bytes than a path or a name may. -/
  | nameTooLong
  /-- The bytes are no text. -/
  | notText
  /-- Another reason, in words. -/
  | other (reason : String)
  deriving DecidableEq, Repr

/-- The sentence that tells a user why a file cannot be read. -/
def ReadError.message : ReadError → String
  | notFound => "No such file or directory (os error 2)"
  | notDirectory => "Not a directory (os error 20)"
  | isDirectory => "Is a directory (os error 21)"
  | nameTooLong => "File name too long (os error 36)"
  | notText => "stream did not contain valid UTF-8"
  | other reason => reason

/-- The text that bytes write in UTF-8. -/
def decodeText (bytes : ByteArray) : Except ReadError String :=
  match String.fromUTF8? bytes with
  | some text => .ok text
  | none => .error .notText

/-- A line of text. -/
def line (text : String) : String :=
  text ++ "\n"

/-- The rule below a heading. -/
def rule : String :=
  String.ofList (List.replicate 50 '=')

/-- How a tool reports a diagnostic that ends it. -/
def finalError (d : Diagnostic) : String :=
  line ("Error: " ++ d.render)

/-- The run of a tool whose arguments make no sense: nothing is done. -/
def refused (usage : String) : Transcript :=
  ⟨2, "", line ("Usage: " ++ usage)⟩

end TokenParsing.CommandLine
