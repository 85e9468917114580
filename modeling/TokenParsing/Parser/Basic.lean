import TokenParsing.Failure
import TokenParsing.TokenStream

/-!
# Parsers

A parser attempts to read a value off the front of a token stream. It may carry a label, which it writes on every
failure that leaves it. Parsers form a monad: `p >>= f` reads with `p` and then, from where `p` stopped, with the
parser that `f` makes of the value read.
-/

namespace TokenParsing

/-- A value read, and the stream after it. -/
structure Success (τ α : Type) where
  /-- The value read. -/
  value : α
  /-- The stream after it. -/
  remaining : TokenStream τ
  deriving Repr

/-- The value changed, the stream after it kept. -/
def Success.map {τ α β : Type} (f : α → β) (r : Success τ α) : Success τ β :=
  ⟨f r.value, r.remaining⟩

/-- The answer of a parser on a stream. -/
abbrev Outcome (τ α : Type) := Except Failure (Success τ α)

/-- A way to read a value off the front of a token stream. -/
structure Parser (τ α : Type) where
  /-- The name under which failures leave the parser, if it has one. -/
  label : Option String := none
  /-- The reading itself, before the label is written on a failure. -/
  attempt : TokenStream τ → Outcome τ α

namespace Parser

variable {τ α β γ : Type}

/-- A failure as it leaves a parser with the given label. -/
def stamp (label : Option String) (f : Failure) : Failure :=
  match label with
  | none => f
  | some l => f.withLabel l

/-- Runs a parser. A failure leaves it under the parser's label, if it has one. -/
def parse (p : Parser τ α) (s : TokenStream τ) : Outcome τ α :=
  match p.attempt s with
  | .ok r => .ok r
  | .error f => .error (stamp p.label f)

/-- The parser under a label, which replaces one it had. -/
def withLabel (l : String) (p : Parser τ α) : Parser τ α :=
  ⟨some l, p.attempt⟩

/-- The text of a parser for a reader: its label. -/
def inspect (p : Parser τ α) : String :=
  let label :=
    match p.label with
    | none => "None"
    | some l => "Some(" ++ Text.quoted l ++ ")"
  "Parser \x7b label: " ++ label ++ ", .. \x7d"

/-- Reads nothing and gives a value. -/
def succeed (a : α) : Parser τ α where
  attempt s := .ok ⟨a, s⟩

/-- Reads with `p`, then with the parser made of its value, from where `p` stopped. A failure of `p` is the answer. -/
def bind (p : Parser τ α) (f : α → Parser τ β) : Parser τ β where
  attempt s :=
    match p.parse s with
    | .error e => .error e
    | .ok r => (f r.value).parse r.remaining

/-- Reads with `p` and changes the value. -/
def map (f : α → β) (p : Parser τ α) : Parser τ β where
  attempt s :=
    match p.parse s with
    | .error e => .error e
    | .ok r => .ok (r.map f)

/-- Reads with `p`, then with `q` from where `p` stopped, and gives both values. -/
def both (p : Parser τ α) (q : Parser τ β) : Parser τ (α × β) where
  attempt s :=
    match p.parse s with
    | .error e => .error e
    | .ok r =>
      match q.parse r.remaining with
      | .error e => .error e
      | .ok r' => .ok ⟨(r.value, r'.value), r'.remaining⟩

/-- Reads with both parsers in order and gives the value of the first. -/
def keepLeft (p : Parser τ α) (q : Parser τ β) : Parser τ α :=
  (p.both q).map Prod.fst

/-- Reads with both parsers in order and gives the value of the second. -/
def keepRight (p : Parser τ α) (q : Parser τ β) : Parser τ β :=
  p.bind fun _ => q

/-- Parsers in sequence, the value of one choosing the next. -/
instance : Monad (Parser τ) where
  pure := succeed
  bind := bind
  map := map
  seqLeft p q := p.keepLeft (q ())
  seqRight p q := p.keepRight (q ())

/-- Reads with `p` and gives also the span of the tokens read. -/
def spanned (p : Parser τ α) : Parser τ (α × Span) where
  attempt s :=
    match p.parse s with
    | .error e => .error e
    | .ok r => .ok ⟨(r.value, ⟨s.position, r.remaining.position⟩), r.remaining⟩

/-- Reads with `p`; a failure of it is answered as `f` maps it. -/
def mapFailure (f : Failure → Failure) (p : Parser τ α) : Parser τ α where
  attempt s :=
    match p.parse s with
    | .error e => .error (f e)
    | .ok r => .ok r

/-- A parser puts its label on the failures of its attempt, if it has one. -/
@[simp] theorem parse_mk (label : Option String) (attempt : TokenStream τ → Outcome τ α) (s : TokenStream τ) :
    (⟨label, attempt⟩ : Parser τ α).parse s =
      match attempt s with
      | .ok r => .ok r
      | .error f => .error (stamp label f) := rfl

/-- An unlabelled parser answers as it attempts. -/
theorem parse_of_label_eq_none {p : Parser τ α} (h : p.label = none) (s : TokenStream τ) :
    p.parse s = p.attempt s := by
  unfold parse
  cases p.attempt s <;> simp [h, stamp]

/-- A success is left as it is. -/
theorem mapError_ok (f : Failure → Failure) (r : Success τ α) : (.ok r : Outcome τ α).mapError f = .ok r := rfl

/-- A failure is mapped. -/
theorem mapError_error (f : Failure → Failure) (e : Failure) : (.error e : Outcome τ α).mapError f = .error (f e) := rfl

/-- A labelled parser differs in the label of its failures. -/
theorem parse_withLabel (l : String) (p : Parser τ α) (s : TokenStream τ) :
    (p.withLabel l).parse s = (p.parse s).mapError (Failure.withLabel l) := by
  unfold parse withLabel
  cases h : p.attempt s with
  | ok r => rfl
  | error f => cases hl : p.label <;> cases f <;> rfl

@[simp] theorem parse_succeed (a : α) (s : TokenStream τ) : (succeed a : Parser τ α).parse s = .ok ⟨a, s⟩ := rfl

/-- A failure ends a sequence; a value chooses what is read behind it. -/
theorem parse_bind (p : Parser τ α) (f : α → Parser τ β) (s : TokenStream τ) :
    (p.bind f).parse s =
      match p.parse s with
      | .error e => .error e
      | .ok r => (f r.value).parse r.remaining :=
  parse_of_label_eq_none rfl s

theorem parse_map (f : α → β) (p : Parser τ α) (s : TokenStream τ) :
    (p.map f).parse s = (p.parse s).map (Success.map f) := by
  rw [parse_of_label_eq_none rfl s]
  simp only [map]
  cases p.parse s <;> rfl

/-- Both parts are read in order, and the first that fails answers for both. -/
theorem parse_both (p : Parser τ α) (q : Parser τ β) (s : TokenStream τ) :
    (p.both q).parse s =
      match p.parse s with
      | .error e => .error e
      | .ok r =>
        match q.parse r.remaining with
        | .error e => .error e
        | .ok r' => .ok ⟨(r.value, r'.value), r'.remaining⟩ :=
  parse_of_label_eq_none rfl s

theorem parse_keepRight (p : Parser τ α) (q : Parser τ β) (s : TokenStream τ) :
    (p.keepRight q).parse s =
      match p.parse s with
      | .error e => .error e
      | .ok r => q.parse r.remaining :=
  parse_bind p _ s

/-- Parts that give no value may be grouped either way. -/
theorem parse_keepRight_assoc (p : Parser τ α) (q : Parser τ β) (r : Parser τ γ) (s : TokenStream τ) :
    ((p.keepRight q).keepRight r).parse s = (p.keepRight (q.keepRight r)).parse s := by
  simp only [parse_keepRight]
  cases p.parse s <;> rfl

theorem parse_keepLeft (p : Parser τ α) (q : Parser τ β) (s : TokenStream τ) :
    (p.keepLeft q).parse s =
      match p.parse s with
      | .error e => .error e
      | .ok r =>
        match q.parse r.remaining with
        | .error e => .error e
        | .ok r' => .ok ⟨r.value, r'.remaining⟩ := by
  rw [keepLeft, parse_map, parse_both]
  cases p.parse s with
  | error e => rfl
  | ok r =>
    dsimp only
    cases q.parse r.remaining <;> rfl

/-- The span of what is read goes from the position before it to the position behind it. -/
theorem parse_spanned (p : Parser τ α) (s : TokenStream τ) :
    p.spanned.parse s =
      match p.parse s with
      | .error e => .error e
      | .ok r => .ok ⟨(r.value, ⟨s.position, r.remaining.position⟩), r.remaining⟩ :=
  parse_of_label_eq_none rfl s

theorem parse_mapFailure (f : Failure → Failure) (p : Parser τ α) (s : TokenStream τ) :
    (p.mapFailure f).parse s = (p.parse s).mapError f := by
  rw [parse_of_label_eq_none rfl s]
  simp only [mapFailure]
  cases p.parse s <;> rfl

@[simp] theorem pure_eq_succeed (a : α) : (pure a : Parser τ α) = succeed a := rfl

@[simp] theorem bind_eq (p : Parser τ α) (f : α → Parser τ β) : p >>= f = p.bind f := rfl

@[simp] theorem map_eq (f : α → β) (p : Parser τ α) : f <$> p = p.map f := rfl

@[simp] theorem seqLeft_eq (p : Parser τ α) (q : Parser τ β) : p <* q = p.keepLeft q := rfl

@[simp] theorem seqRight_eq (p : Parser τ α) (q : Parser τ β) : p *> q = p.keepRight q := rfl

end Parser

end TokenParsing
