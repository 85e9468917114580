import TokenParsing.Failure
import TokenParsing.LineIndex

/-!
# Plain reports

A failure of a character parser shown against the text it was parsed from: the line it points into, a caret below the
first character it points at, and its message.
-/

namespace TokenParsing

/-- A report of a failure. The label is left out when there is none. -/
def Failure.report (text : String) (f : Failure) : String :=
  let index := LineIndex.ofText text
  let position := index.position f.span.start
  let label :=
    match f.label with
    | none => ""
    | some l => ", in parser " ++ l
  let line := (index.line? position.line).getD ""
  let indent := String.ofList (List.replicate (position.column - 1) ' ')
  "Error at line " ++ toString position.line ++ label ++ ":\n    " ++ line ++ "\n    " ++ indent ++ "^\n" ++ f.message

end TokenParsing
