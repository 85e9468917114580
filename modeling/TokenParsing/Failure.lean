import TokenParsing.Span

/-!
# Failures

A failed attempt answers why it failed, where, and which parser it left. A failure never reports consumed input:
callers may try again from where they started.
-/

namespace TokenParsing

/-- What went wrong in an attempt. Tokens are named by their descriptions. -/
inductive Cause where
  /-- More tokens were asked for than are left. -/
  | endOfInput
  /-- A token was there and not accepted. -/
  | unexpected (found : String)
  /-- A run of tokens differs from the one asked for. -/
  | expected (wanted found : String)
  /-- A pattern that ends a run of tokens does not occur. -/
  | patternNotFound (pattern : String)
  /-- A reason given by the parser's author. -/
  | custom (message : String)
  /-- An opening delimiter has no closing one. -/
  | unclosed (delimiter : String)
  /-- A repetition matched fewer times than its minimum. -/
  | tooFew (minimum found : Nat)
  deriving DecidableEq, Repr

namespace Cause

/-- The sentence that tells a reader what went wrong. -/
def message : Cause → String
  | endOfInput => "Expected something, but found end of input."
  | unexpected found => "Unexpected item " ++ found ++ "."
  | expected wanted found => "Expected " ++ wanted ++ ", instead found " ++ found ++ "."
  | patternNotFound pattern => "Pattern " ++ pattern ++ " not in input."
  | custom message => message
  | unclosed delimiter => "Unclosed delimiter " ++ delimiter ++ "."
  | tooFew _ _ => "Expected input."

/-- The short name of a cause. -/
def code : Cause → String
  | endOfInput => "end_of_input"
  | unexpected _ => "unexpected"
  | expected _ _ => "expected"
  | patternNotFound _ => "pattern_not_found"
  | custom _ => "custom"
  | unclosed _ => "unclosed"
  | tooFew _ _ => "too_few"

end Cause

/-- The reason why an attempt failed: one cause, or the failures of both alternatives of a choice. -/
inductive Failure where
  /-- One cause at one place. -/
  | single (cause : Cause) (span : Span) (label : Option String)
  /-- Neither alternative of a choice succeeded. -/
  | combined (first second : Failure) (span : Span) (label : Option String)
  deriving DecidableEq, Repr

namespace Failure

/-- A failure that has not left a labelled parser. -/
def of (cause : Cause) (span : Span) : Failure :=
  single cause span none

/-- The tokens the failure points at. -/
def span : Failure → Span
  | single _ s _ => s
  | combined _ _ s _ => s

/-- The label of the outermost labelled parser that the failure left. -/
def label : Failure → Option String
  | single _ _ l => l
  | combined _ _ _ l => l

/-- The failure as it leaves a parser with a label, which replaces the label of any parser inside. -/
def withLabel (l : String) : Failure → Failure
  | single c s _ => single c s (some l)
  | combined f g s _ => combined f g s (some l)

/-- The failure pointing at other tokens. -/
def withSpan (s : Span) : Failure → Failure
  | single c _ l => single c s l
  | combined f g _ l => combined f g s l

/-- The failure of a choice neither of whose alternatives succeeded; it points at both. -/
def combine (first second : Failure) : Failure :=
  combined first second (first.span.merge second.span) none

/-- Running out of tokens at a position. -/
def endOfInput (position : Nat) : Failure :=
  of .endOfInput (.single position)

/-- A failure for a reason given by the parser's author. -/
def custom (message : String) (span : Span) : Failure :=
  of (.custom message) span

/-- The sentence that tells a reader what went wrong. Labels are not part of it. -/
def message : Failure → String
  | single c _ _ => c.message
  | combined f g _ _ =>
    "Both parsers returned an error. First parser: " ++ f.message ++ "; Second parser: " ++ g.message

/-- The short name of what went wrong. -/
def code : Failure → String
  | single c _ _ => c.code
  | combined _ _ _ _ => "combined"

/-- The sentence of a choice quotes those of both alternatives. -/
theorem message_combined (f g : Failure) (s : Span) (l : Option String) :
    (combined f g s l).message =
      "Both parsers returned an error. First parser: " ++ f.message ++ "; Second parser: " ++ g.message := rfl

@[simp] theorem span_withLabel (l : String) (f : Failure) : (f.withLabel l).span = f.span := by
  cases f <;> rfl

@[simp] theorem label_withLabel (l : String) (f : Failure) : (f.withLabel l).label = some l := by
  cases f <;> rfl

@[simp] theorem message_withLabel (l : String) (f : Failure) : (f.withLabel l).message = f.message := by
  cases f <;> rfl

@[simp] theorem span_withSpan (s : Span) (f : Failure) : (f.withSpan s).span = s := by
  cases f <;> rfl

@[simp] theorem label_withSpan (s : Span) (f : Failure) : (f.withSpan s).label = f.label := by
  cases f <;> rfl

@[simp] theorem message_withSpan (s : Span) (f : Failure) : (f.withSpan s).message = f.message := by
  cases f <;> rfl

end Failure

end TokenParsing
