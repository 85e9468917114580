import TokenParsing.Failure
import TokenParsing.LineIndex
import TokenParsing.Text.Quoted

/-!
# Diagnostics

A failure as a record for tools: its code, its message, a hint, and a mark on the bytes of the text that it points at.
The written form of a diagnostic is one record with quoted fields, followed by a note.
-/

namespace TokenParsing

/-- A run of bytes of a text, with what is said about it. -/
structure Mark where
  /-- What is said. -/
  text : String
  /-- The number of bytes before the run. -/
  offset : Nat
  /-- The number of bytes of the run. -/
  length : Nat
  deriving DecidableEq, Repr

/-- A message for a reader, with what is known about its cause. -/
structure Diagnostic where
  /-- The message. -/
  message : String
  /-- The name of the kind of message. -/
  code : Option String := none
  /-- A hint. -/
  help : Option String := none
  /-- The place in the text. -/
  mark : Option Mark := none
  deriving DecidableEq, Repr

/-- The bytes of a text that a failure points at, under the name of the parser it left. -/
def Failure.mark (text : String) (f : Failure) : Mark :=
  let index := LineIndex.ofText text
  let said :=
    match f.label with
    | none => "here"
    | some l => "in parser " ++ l
  ⟨said, index.byteOffset f.span.start, index.byteOffset f.span.stop - index.byteOffset f.span.start⟩

/-- The diagnostic of a failure of a character parser on a text. -/
def Failure.diagnostic (text : String) (f : Failure) : Diagnostic where
  message := f.message
  code := some ("parser::" ++ f.code)
  help := f.label.map fun l => "expected to find " ++ l
  mark := some (f.mark text)

/-- The written form of a mark. -/
def Mark.render (m : Mark) : String :=
  "LabeledSpan \x7b label: Some(" ++ Text.quoted m.text ++ "), span: SourceSpan \x7b offset: SourceOffset(" ++
    toString m.offset ++ "), length: " ++ toString m.length ++ " \x7d, primary: false \x7d"

/-- The fields of a diagnostic that are present, by name. -/
def Diagnostic.fields (d : Diagnostic) : List (String × String) :=
  [("message", some d.message), ("code", d.code), ("help", d.help),
    ("labels", d.mark.map fun m => "[" ++ m.render ++ "]")].filterMap fun (name, value) => value.map (name, ·)

/-- What follows every written diagnostic. -/
def Diagnostic.note : String :=
  "NOTE: If you're looking for the fancy error reports, install miette with the \x60fancy\x60 feature, " ++
    "or write your own and hook it up with miette::set_hook()."

/-- The written form of a diagnostic: its fields, each value quoted, and the note, each ended by a newline. -/
def Diagnostic.render (d : Diagnostic) : String :=
  let fields := d.fields.map fun (name, value) => name ++ ": " ++ Text.quoted value
  "Diagnostic \x7b " ++ ", ".intercalate fields ++ " \x7d\n" ++ note ++ "\n"

end TokenParsing
