import TokenParsing.Parser.Text

/-!
# Built parsers

A parser is built when it is made of the primitives by the combinators, nested finitely deep; what `bind` makes of a
value is built again, for every value. A law of built parsers is an induction over `Built`, with one case for each way
to make a parser. Not every law survives all of them: `reject` and `mapFailure` let an author answer any failure, and
`spanned` lets a value tell a position. A law says by a list of features which of the three it allows.
-/

namespace TokenParsing.Parser

/-- The ways to make a parser that not every law of parsers allows. -/
inductive Feature where
  /-- Failing with a failure of the author's choice. -/
  | reject
  /-- Changing the failures of a part. -/
  | mapFailure
  /-- Giving the span that was read. -/
  | spanned
  deriving DecidableEq, Repr

/-- The parsers made of primitives by combinators, and of those in `Feature` only by the ones listed. Parsers of one
token, and those of a text, have cases of their own: they choose failures themselves, but only of a certain form. -/
inductive Built (features : List Feature) : {τ α : Type} → Parser τ α → Prop where
  | succeed {τ α : Type} (a : α) : Built features (succeed a : Parser τ α)
  | zero {τ α : Type} : Built features (zero : Parser τ α)
  | fail {τ α : Type} (message : String) : Built features (fail message : Parser τ α)
  | unexpected {τ α : Type} (found : String) : Built features (unexpected found : Parser τ α)
  | reject {τ α : Type} (h : .reject ∈ features) (f : Failure) : Built features (reject f : Parser τ α)
  | anyToken {τ : Type} : Built features (anyToken : Parser τ τ)
  | take {τ : Type} (n : Nat) : Built features (take n : Parser τ (List τ))
  | accept {τ : Type} [Describe τ] (label : String) (accepts : τ → Bool) : Built features (accept label accepts)
  | takeUntil {τ : Type} [DecidableEq τ] [Describe τ] (pattern : List τ) : Built features (takeUntil pattern)
  | endOfInput {τ : Type} [Describe τ] : Built features (endOfInput : Parser τ Unit)
  | literal (expected : String) : Built features (literal expected)
  | takeUntilText (pattern : String) : Built features (takeUntilText pattern)
  | bind {τ α β : Type} {p : Parser τ α} {f : α → Parser τ β} (hp : Built features p)
      (hf : ∀ a, Built features (f a)) : Built features (p.bind f)
  | map {τ α β : Type} (f : α → β) {p : Parser τ α} (hp : Built features p) : Built features (p.map f)
  | both {τ α β : Type} {p : Parser τ α} {q : Parser τ β} (hp : Built features p) (hq : Built features q) :
      Built features (p.both q)
  | orElse {τ α : Type} {p q : Parser τ α} (hp : Built features p) (hq : Built features q) :
      Built features (p.orElse q)
  | optional {τ α : Type} {p : Parser τ α} (hp : Built features p) : Built features p.optional
  | repeated {τ α : Type} (minimum : Nat) (maximum : Option Nat) {p : Parser τ α} (hp : Built features p) :
      Built features (p.repeated minimum maximum)
  | withLabel {τ α : Type} (l : String) {p : Parser τ α} (hp : Built features p) : Built features (p.withLabel l)
  | mapFailure {τ α : Type} (h : .mapFailure ∈ features) (f : Failure → Failure) {p : Parser τ α}
      (hp : Built features p) : Built features (p.mapFailure f)
  | spanned {τ α : Type} (h : .spanned ∈ features) {p : Parser τ α} (hp : Built features p) : Built features p.spanned

variable {τ α β γ : Type} {features : List Feature}

/-! ## Combinators made of others -/

/-- Keeping the first of two values is a pair of parts and a function of their values. -/
theorem Built.keepLeft {p : Parser τ α} {q : Parser τ β} (hp : Built features p) (hq : Built features q) :
    Built features (p.keepLeft q) :=
  (hp.both hq).map Prod.fst

/-- Keeping the second is a sequence that forgets the first value. -/
theorem Built.keepRight {p : Parser τ α} {q : Parser τ β} (hp : Built features p) (hq : Built features q) :
    Built features (p.keepRight q) :=
  hp.bind fun _ => hq

/-- A parser between two others is a sequence of the three. -/
theorem Built.between {p : Parser τ α} {opening : Parser τ β} {closing : Parser τ γ} (hp : Built features p)
    (ho : Built features opening) (hc : Built features closing) : Built features (p.between opening closing) :=
  (ho.keepRight hp).keepLeft hc

/-- Padding may be absent on either side. -/
theorem Built.padded {p : Parser τ α} {padding : Parser τ β} (hp : Built features p) (hpad : Built features padding) :
    Built features (p.padded padding) :=
  hp.between hpad.optional hpad.optional

/-- Any number of matches are a repetition without a minimum. -/
theorem Built.many {p : Parser τ α} (hp : Built features p) : Built features p.many :=
  hp.repeated 0 none

/-- At least one match is a repetition with the minimum one. -/
theorem Built.many1 {p : Parser τ α} (hp : Built features p) : Built features p.many1 :=
  hp.repeated 1 none

/-- Folding what is read changes the value only. -/
theorem Built.fold (f : α → β → α) {p : Parser τ (α × List β)} (hp : Built features p) : Built features (fold f p) :=
  hp.map _

/-- So does making a text of the characters read. -/
theorem Built.asString {p : Parser τ (List Char)} (hp : Built features p) : Built features p.asString :=
  hp.map _

/-- A missing closing is answered by a failure of its own, at the place of the opening. -/
theorem Built.delimitedBy (hm : .mapFailure ∈ features) (hs : .spanned ∈ features) (delimiter : String)
    {opening : Parser τ β} {closing : Parser τ γ} {inner : Parser τ α} (ho : Built features opening)
    (hc : Built features closing) (hi : Built features inner) :
    Built features (delimitedBy delimiter opening closing inner) := by
  rw [Parser.delimitedBy, bind_eq]
  refine (ho.spanned hs).bind ?_
  rintro ⟨_, span⟩
  exact hi.keepLeft (hc.mapFailure hm _)

/-! ## Parsers of tokens and of characters -/

/-- A given token is one that is equal to it. -/
theorem built_token [DecidableEq τ] [Describe τ] (expected : τ) : Built features (token expected) :=
  .accept _ _

/-- A token of a set is one that the set has. -/
theorem built_oneOf [DecidableEq τ] [Describe τ] (set : List τ) : Built features (oneOf set) :=
  .accept _ _

/-- A token outside a set is one that the set has not. -/
theorem built_noneOf [DecidableEq τ] [Describe τ] (set : List τ) : Built features (noneOf set) :=
  .accept _ _

/-- A token with a property is one that the property accepts. -/
theorem built_satisfy [Describe τ] (property : τ → Bool) : Built features (satisfy property) :=
  .accept _ _

/-- The text of a symbol is a literal with a label. -/
theorem built_symbol (expected : String) : Built features (symbol expected) :=
  (Built.literal expected).withLabel _

/-- A run of characters is a repetition of one that its property accepts. -/
theorem built_charRun (property : Char → Bool) : Built features (charRun property) :=
  (built_satisfy property).many1.asString

/-- A name is a character that may start one and any that may follow. -/
theorem built_ident : Built features ident :=
  (((built_satisfy _).both (built_satisfy _).many).map _).withLabel _

/-- Blanks are any number of characters of a set. -/
theorem built_whitespace : Built features whitespace :=
  (built_oneOf _).many.asString

/-- So are the blanks of one line. -/
theorem built_inlineWhitespace : Built features inlineWhitespace :=
  (built_oneOf _).many.asString

/-- Blanks around a parser are padding. -/
theorem Built.paddedByWhitespace {p : Parser Char α} (hp : Built features p) : Built features (paddedByWhitespace p) :=
  hp.padded built_whitespace

/-- A character that is skipped is optional, and its value is forgotten. -/
theorem built_skipChar (c : Char) : Built features (skipChar c) :=
  (built_token c).optional.map _

/-- A number that cannot be read is answered by a failure of its own. -/
theorem built_number (hr : .reject ∈ features) (hs : .spanned ∈ features) : Built features number := by
  have hdigits : Built features (charRun Char.isDigit) := built_charRun _
  have hfraction : Built features (token '.' *> charRun Char.isDigit).optional :=
    ((built_token _).keepRight hdigits).optional
  refine (((hdigits.both hfraction).spanned hs).bind fun ((whole, fraction), span) => ?_).withLabel _
  dsimp only
  split
  · exact .succeed _
  · exact .reject hr _

end TokenParsing.Parser
