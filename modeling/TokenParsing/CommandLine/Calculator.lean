import TokenParsing.Calculator.Reading
import TokenParsing.CommandLine.Basic
import TokenParsing.Report

/-!
# The calculator tool

Evaluates the expressions given as arguments, or a fixed set of them, and shows for each its value or why it cannot be
read.
-/

namespace TokenParsing.CommandLine.Calculator

open TokenParsing.Calculator

/-- How a failure is shown. -/
inductive ReportStyle where
  /-- As a line of the text with a caret. -/
  | plain
  /-- As a diagnostic. -/
  | diagnostic
  deriving DecidableEq, Repr

/-- The style of a name. -/
def ReportStyle.ofName? (name : String) : Option ReportStyle :=
  if name = "plain" then some plain
  else if name = "miette" then some diagnostic
  else none

/-- What a user asks for. -/
structure Request where
  /-- The expressions to evaluate. -/
  texts : List String := []
  /-- How failures are shown. -/
  style : ReportStyle := .plain
  /-- Whether the tree of each expression is shown. -/
  tree : Bool := false
  /-- Whether only the version is shown. -/
  version : Bool := false
  deriving DecidableEq, Repr

/-- The argument of an option and its value in one word, `--report=value`. -/
def joinedStyle? (argument : String) : Option String :=
  let start := "--report=".toList
  if start.isPrefixOf argument.toList then some (String.ofList (argument.toList.drop start.length)) else none

/-- The request that arguments make. Options may stand before, between and after the texts, up to an argument `--`. -/
def request? : List String → Option Request
  | [] => some {}
  | argument :: rest =>
    if argument = "--" then
      some { texts := rest }
    else if argument = "--tree" then
      (request? rest).map fun r => { r with tree := true }
    else if argument = "--version" ∨ argument = "-V" then
      some { version := true }
    else if argument = "--report" then
      match rest with
      | [] => none
      | name :: rest =>
        match ReportStyle.ofName? name, request? rest with
        | some style, some r => some { r with style := style }
        | _, _ => none
    else
      match joinedStyle? argument with
      | some name =>
        match ReportStyle.ofName? name, request? rest with
        | some style, some r => some { r with style := style }
        | _, _ => none
      | none =>
        if argument.startsWith "-" ∧ argument ≠ "-" then none
        else (request? rest).map fun r => { r with texts := argument :: r.texts }

/-- The expressions evaluated when none are given. -/
def samples : List String :=
  ["3 + 4", "2 * 3.14", "(1 + 2) * 3", "2 ^ 8", "10 / 2.5", "-5", "3 + 4 * 5", "2 ^ 3 ^ 2", "(1 + 2", "4 * x"]

/-- The text that shows a failure. -/
def showFailure (style : ReportStyle) (text : String) (f : Failure) : String :=
  match style with
  | .plain => line (f.report text)
  | .diagnostic => line (f.diagnostic text).render

/-- What is shown of one expression: on standard output, and on standard error if it cannot be read. -/
def showExpression (style : ReportStyle) (tree : Bool) (text : String) : String × Option String :=
  let heading := line ("Expression: " ++ text) ++ line rule
  match parse text with
  | .ok e =>
    (heading ++ (if tree then e.tree else "") ++ line ("Result: " ++ Decimal.render e.evaluate) ++ line "", none)
  | .error f => (heading ++ line "", some (showFailure style text f))

/-- Runs the tool. Expressions that cannot be read make the run fail when the user gave them. -/
def run (arguments : List String) : Transcript :=
  match request? arguments with
  | none => refused "calc-parser [--tree] [--report plain|miette] [EXPRS]..."
  | some r =>
    if r.version then
      ⟨0, line "calc-parser 0.1.0", ""⟩
    else
      let texts := if r.texts.isEmpty then samples else r.texts
      let shown := texts.map (showExpression r.style r.tree)
      let failures := shown.filterMap Prod.snd
      let out := line "=== Calculator Parser ===" ++ line "" ++ String.join (shown.map Prod.fst)
      if failures.isEmpty ∨ r.texts.isEmpty then
        ⟨0, out, String.join failures⟩
      else
        let message :=
          toString failures.length ++ " of " ++ toString texts.length ++ " expressions failed to parse"
        ⟨1, out, String.join failures ++ finalError { message }⟩

end TokenParsing.CommandLine.Calculator
