import TokenParsing.Proofs.Parser.Outcomes

/-!
# Failures do not steer parsing

What a parser says about its failures is decoration: the labels written on them and the functions that change them.
Parsers that differ in decoration alone (`Parser.Redecorated`) read the same values and leave the same tokens, although
a choice, an optional part and a repetition all go on after failures they have seen. If the decoration differs in labels
alone, the failures differ in labels alone too, provided no function that changes failures looks at labels.
-/

namespace TokenParsing

/-! ## Failures without their labels -/

namespace Failure

/-- The failure without its label, and without those of the failures that it combines. -/
def unlabelled : Failure → Failure
  | single c sp _ => single c sp none
  | combined f g sp _ => combined f.unlabelled g.unlabelled sp none

@[simp] theorem span_unlabelled (f : Failure) : f.unlabelled.span = f.span := by
  cases f <;> rfl

@[simp] theorem code_unlabelled (f : Failure) : f.unlabelled.code = f.code := by
  cases f <;> rfl

/-- Messages name no labels. -/
@[simp] theorem message_unlabelled (f : Failure) : f.unlabelled.message = f.message := by
  induction f with
  | single c sp l => rfl
  | combined f g sp l ihf ihg => rw [unlabelled, message_combined, message_combined, ihf, ihg]

@[simp] theorem unlabelled_withLabel (l : String) (f : Failure) : (f.withLabel l).unlabelled = f.unlabelled := by
  cases f <;> rfl

@[simp] theorem unlabelled_combine (f g : Failure) :
    (combine f g).unlabelled = combine f.unlabelled g.unlabelled := by
  rw [combine, combine, unlabelled, span_unlabelled, span_unlabelled]

/-- A change of failures that does not look at labels: from failures that agree but for labels it makes failures that
agree but for labels. -/
def LabelBlind (f : Failure → Failure) : Prop :=
  ∀ e e' : Failure, e.unlabelled = e'.unlabelled → (f e).unlabelled = (f e').unlabelled

/-- Answering every failure in the same way looks at nothing. -/
theorem labelBlind_const (e : Failure) : LabelBlind fun _ => e :=
  fun _ _ _ => rfl

end Failure

/-- The decoration in which two parsers may differ. -/
inductive Decoration where
  /-- Labels. -/
  | labels
  /-- Labels, and the functions that change failures. -/
  | diagnostics
  deriving DecidableEq, Repr

namespace Parser

open TokenStream

variable {τ α β γ : Type} {d : Decoration}

/-! ## Parsers that differ in decoration -/

/-- One parser is made of the other by putting decoration around parts of it, taking it off or replacing it. Parts that
are left alone may be any parsers. A function that changes failures in both parsers must not look at labels; where
such functions may differ, any function can be put on or taken off. -/
inductive Redecorated (d : Decoration) : {τ α : Type} → Parser τ α → Parser τ α → Prop where
  | same {τ α : Type} (p : Parser τ α) : Redecorated d p p
  | labelLeft {τ α : Type} (l : String) {p q : Parser τ α} (h : Redecorated d p q) : Redecorated d (p.withLabel l) q
  | labelRight {τ α : Type} (l : String) {p q : Parser τ α} (h : Redecorated d p q) : Redecorated d p (q.withLabel l)
  | changeLeft {τ α : Type} (hd : d = .diagnostics) (f : Failure → Failure) {p q : Parser τ α}
      (h : Redecorated d p q) : Redecorated d (p.mapFailure f) q
  | changeRight {τ α : Type} (hd : d = .diagnostics) (f : Failure → Failure) {p q : Parser τ α}
      (h : Redecorated d p q) : Redecorated d p (q.mapFailure f)
  | mapFailure {τ α : Type} {f : Failure → Failure} (hf : Failure.LabelBlind f) {p q : Parser τ α}
      (h : Redecorated d p q) : Redecorated d (p.mapFailure f) (q.mapFailure f)
  | bind {τ α β : Type} {p q : Parser τ α} {f g : α → Parser τ β} (hp : Redecorated d p q)
      (hf : ∀ a, Redecorated d (f a) (g a)) : Redecorated d (p.bind f) (q.bind g)
  | map {τ α β : Type} (f : α → β) {p q : Parser τ α} (h : Redecorated d p q) : Redecorated d (p.map f) (q.map f)
  | both {τ α β : Type} {p q : Parser τ α} {p' q' : Parser τ β} (h : Redecorated d p q) (h' : Redecorated d p' q') :
      Redecorated d (p.both p') (q.both q')
  | orElse {τ α : Type} {p q p' q' : Parser τ α} (h : Redecorated d p q) (h' : Redecorated d p' q') :
      Redecorated d (p.orElse p') (q.orElse q')
  | optional {τ α : Type} {p q : Parser τ α} (h : Redecorated d p q) : Redecorated d p.optional q.optional
  | repeated {τ α : Type} (minimum : Nat) (maximum : Option Nat) {p q : Parser τ α} (h : Redecorated d p q) :
      Redecorated d (p.repeated minimum maximum) (q.repeated minimum maximum)
  | spanned {τ α : Type} {p q : Parser τ α} (h : Redecorated d p q) : Redecorated d p.spanned q.spanned

/-! ### Combinators made of others -/

/-- Keeping the first of two values is redecorated in its parts. -/
theorem Redecorated.keepLeft {p q : Parser τ α} {p' q' : Parser τ β} (h : Redecorated d p q)
    (h' : Redecorated d p' q') : Redecorated d (p.keepLeft p') (q.keepLeft q') :=
  (h.both h').map Prod.fst

/-- So is keeping the second. -/
theorem Redecorated.keepRight {p q : Parser τ α} {p' q' : Parser τ β} (h : Redecorated d p q)
    (h' : Redecorated d p' q') : Redecorated d (p.keepRight p') (q.keepRight q') :=
  h.bind fun _ => h'

/-- So is a parser between two others. -/
theorem Redecorated.between {p q : Parser τ α} {opening opening' : Parser τ β} {closing closing' : Parser τ γ}
    (h : Redecorated d p q) (ho : Redecorated d opening opening') (hc : Redecorated d closing closing') :
    Redecorated d (p.between opening closing) (q.between opening' closing') :=
  (ho.keepRight h).keepLeft hc

/-- So is padding. -/
theorem Redecorated.padded {p q : Parser τ α} {padding padding' : Parser τ β} (h : Redecorated d p q)
    (hpad : Redecorated d padding padding') : Redecorated d (p.padded padding) (q.padded padding') :=
  h.between hpad.optional hpad.optional

/-- So is what is folded. -/
theorem Redecorated.fold (f : α → β → α) {p q : Parser τ (α × List β)} (h : Redecorated d p q) :
    Redecorated d (fold f p) (fold f q) :=
  h.map _

/-- The failure of a missing closing does not depend on what the closing says. -/
theorem Redecorated.delimitedBy (delimiter : String) {opening opening' : Parser τ β} {closing closing' : Parser τ γ}
    {inner inner' : Parser τ α} (ho : Redecorated d opening opening') (hc : Redecorated d closing closing')
    (hi : Redecorated d inner inner') :
    Redecorated d (delimitedBy delimiter opening closing inner) (delimitedBy delimiter opening' closing' inner') := by
  rw [Parser.delimitedBy, Parser.delimitedBy, bind_eq, bind_eq]
  refine ho.spanned.bind ?_
  rintro ⟨_, span⟩
  exact hi.keepLeft (hc.mapFailure (Failure.labelBlind_const _))

/-! ## They read alike -/

/-- Two answers agree: they are the same success, or both are failures. Where only labels may differ, the failures agree
but for them. -/
inductive AnswersAlike (d : Decoration) : Outcome τ α → Outcome τ α → Prop where
  | ok (r : Success τ α) : AnswersAlike d (.ok r) (.ok r)
  | error {e e' : Failure} (h : d = .labels → e.unlabelled = e'.unlabelled) : AnswersAlike d (.error e) (.error e')

/-- Two parsers that answer alike on every stream. -/
def ReadsAlike (d : Decoration) (p q : Parser τ α) : Prop :=
  ∀ s, AnswersAlike d (p.parse s) (q.parse s)

/-- Two runs of parsers that read alike: both succeed, with the same answer, or both fail. -/
theorem ReadsAlike.answers {p q : Parser τ α} (h : ReadsAlike d p q) (s : TokenStream τ) :
    (∃ r, p.parse s = .ok r ∧ q.parse s = .ok r) ∨
      ∃ e e', p.parse s = .error e ∧ q.parse s = .error e' ∧ (d = .labels → e.unlabelled = e'.unlabelled) := by
  have hs := h s
  generalize p.parse s = o, q.parse s = o' at hs
  cases hs with
  | ok r => exact Or.inl ⟨r, rfl, rfl⟩
  | error he => exact Or.inr ⟨_, _, rfl, rfl, he⟩

/-- A parser reads as itself. -/
theorem readsAlike_refl (p : Parser τ α) : ReadsAlike d p p := by
  intro s
  cases p.parse s with
  | ok r => exact .ok r
  | error e => exact .error fun _ => rfl

/-- Which of the two is decorated makes no difference. -/
theorem ReadsAlike.symm {p q : Parser τ α} (h : ReadsAlike d p q) : ReadsAlike d q p := by
  intro s
  rcases h.answers s with ⟨r, hp, hq⟩ | ⟨e, e', hp, hq, he⟩
  · rw [hp, hq]
    exact .ok r
  · rw [hp, hq]
    exact .error fun hd => (he hd).symm

/-- Changing the failures of two parsers, by functions that keep the failures alike. -/
theorem ReadsAlike.changeFailures {p q : Parser τ α} (h : ReadsAlike d p q) {f g : Failure → Failure}
    (hfg : d = .labels → ∀ e e' : Failure, e.unlabelled = e'.unlabelled → (f e).unlabelled = (g e').unlabelled) :
    ReadsAlike d (p.mapFailure f) (q.mapFailure g) := by
  intro s
  rw [parse_mapFailure, parse_mapFailure]
  rcases h.answers s with ⟨r, hp, hq⟩ | ⟨e, e', hp, hq, he⟩
  · rw [hp, hq]
    exact .ok r
  · rw [hp, hq]
    exact .error fun hd => hfg hd e e' (he hd)

/-- Leaving failures as they are changes no answer. -/
theorem parse_mapFailure_id (p : Parser τ α) (s : TokenStream τ) : (p.mapFailure id).parse s = p.parse s := by
  rw [parse_mapFailure]
  cases p.parse s <;> rfl

/-- Changing the failures of one of two parsers. -/
theorem ReadsAlike.changeLeft {p q : Parser τ α} (h : ReadsAlike d p q) {f : Failure → Failure}
    (hf : d = .labels → ∀ e : Failure, (f e).unlabelled = e.unlabelled) : ReadsAlike d (p.mapFailure f) q := by
  intro s
  rw [← parse_mapFailure_id q s]
  exact h.changeFailures (fun hd e e' he => (hf hd e).trans he) s

/-- A label on one of two parsers changes labels only. -/
theorem ReadsAlike.labelLeft (l : String) {p q : Parser τ α} (h : ReadsAlike d p q) :
    ReadsAlike d (p.withLabel l) q := by
  intro s
  rw [parse_withLabel, ← parse_mapFailure]
  exact h.changeLeft (fun _ e => Failure.unlabelled_withLabel l e) s

/-- Sequences read alike when their parts do, the second for every value of the first. -/
theorem ReadsAlike.bind {p q : Parser τ α} {f g : α → Parser τ β} (h : ReadsAlike d p q)
    (hf : ∀ a, ReadsAlike d (f a) (g a)) : ReadsAlike d (p.bind f) (q.bind g) := by
  intro s
  rw [parse_bind, parse_bind]
  rcases h.answers s with ⟨r, hp, hq⟩ | ⟨e, e', hp, hq, he⟩
  · rw [hp, hq]
    exact hf r.value r.remaining
  · rw [hp, hq]
    exact .error he

/-- A function of the value is applied to the same value. -/
theorem ReadsAlike.map (f : α → β) {p q : Parser τ α} (h : ReadsAlike d p q) :
    ReadsAlike d (p.map f) (q.map f) := by
  intro s
  rw [parse_map, parse_map]
  rcases h.answers s with ⟨r, hp, hq⟩ | ⟨e, e', hp, hq, he⟩
  · rw [hp, hq]
    exact .ok (r.map f)
  · rw [hp, hq]
    exact .error he

/-- Pairs read alike when their parts do. -/
theorem ReadsAlike.both {p q : Parser τ α} {p' q' : Parser τ β} (h : ReadsAlike d p q) (h' : ReadsAlike d p' q') :
    ReadsAlike d (p.both p') (q.both q') := by
  intro s
  rw [parse_both, parse_both]
  rcases h.answers s with ⟨r, hp, hq⟩ | ⟨e, e', hp, hq, he⟩
  · rw [hp, hq]
    dsimp only
    rcases h'.answers r.remaining with ⟨r', hp, hq⟩ | ⟨e, e', hp, hq, he⟩
    · rw [hp, hq]
      exact .ok _
    · rw [hp, hq]
      exact .error he
  · rw [hp, hq]
    exact .error he

/-- The failures of both alternatives are part of the failure of a choice, with their labels. -/
theorem ReadsAlike.orElse {p q p' q' : Parser τ α} (h : ReadsAlike d p q) (h' : ReadsAlike d p' q') :
    ReadsAlike d (p.orElse p') (q.orElse q') := by
  intro s
  rw [parse_orElse, parse_orElse]
  rcases h.answers s with ⟨r, hp, hq⟩ | ⟨e₁, e₁', hp, hq, he₁⟩
  · rw [hp, hq]
    exact .ok r
  · rw [hp, hq]
    dsimp only
    rcases h'.answers s with ⟨r', hp, hq⟩ | ⟨e₂, e₂', hp, hq, he₂⟩
    · rw [hp, hq]
      exact .ok r'
    · rw [hp, hq]
      refine .error fun hd => ?_
      rw [Failure.unlabelled_combine, Failure.unlabelled_combine, he₁ hd, he₂ hd]

/-- The failure of an optional part is forgotten. -/
theorem ReadsAlike.optional {p q : Parser τ α} (h : ReadsAlike d p q) : ReadsAlike d p.optional q.optional := by
  intro s
  rw [parse_optional, parse_optional]
  rcases h.answers s with ⟨r, hp, hq⟩ | ⟨e, e', hp, hq, -⟩
  · rw [hp, hq]
    exact .ok _
  · rw [hp, hq]
    exact .ok _

/-- Collecting stops at the same failures, whatever they say. -/
theorem ReadsAlike.collect_eq {p q : Parser τ α} (h : ReadsAlike d p q) (untilIdle : Bool) (budget owed : Nat)
    (s : TokenStream τ) : p.collect untilIdle budget owed s = q.collect untilIdle budget owed s := by
  induction budget generalizing owed s with
  | zero => rfl
  | succ budget ih =>
    rw [collect, collect]
    rcases h.answers s with ⟨r, hp, hq⟩ | ⟨e, e', hp, hq, -⟩
    · rw [hp, hq]
      dsimp only
      rw [ih]
    · rw [hp, hq]

/-- Repetitions read alike: what they collect is the same, and their failure counts it. -/
theorem ReadsAlike.repeated (minimum : Nat) (maximum : Option Nat) {p q : Parser τ α} (h : ReadsAlike d p q) :
    ReadsAlike d (p.repeated minimum maximum) (q.repeated minimum maximum) := by
  intro s
  have heq : (p.repeated minimum maximum).parse s = (q.repeated minimum maximum).parse s := by
    rw [parse_repeated, parse_repeated, h.collect_eq]
  rw [heq]
  exact readsAlike_refl _ s

/-- The span of the same success is the same. -/
theorem ReadsAlike.spanned {p q : Parser τ α} (h : ReadsAlike d p q) : ReadsAlike d p.spanned q.spanned := by
  intro s
  rw [parse_spanned, parse_spanned]
  rcases h.answers s with ⟨r, hp, hq⟩ | ⟨e, e', hp, hq, he⟩
  · rw [hp, hq]
    exact .ok _
  · rw [hp, hq]
    exact .error he

/-- Decoration does not change what is read. -/
theorem Redecorated.readsAlike {p q : Parser τ α} (h : Redecorated d p q) : ReadsAlike d p q := by
  induction h with
  | same p => exact readsAlike_refl p
  | labelLeft l _ ih => exact ih.labelLeft l
  | labelRight l _ ih => exact (ih.symm.labelLeft l).symm
  | changeLeft hd f _ ih => exact ih.changeLeft fun hl => nomatch hd.symm.trans hl
  | changeRight hd f _ ih => exact (ih.symm.changeLeft fun hl => nomatch hd.symm.trans hl).symm
  | mapFailure hf _ ih => exact ih.changeFailures fun _ => hf
  | bind _ _ ihp ihf => exact ihp.bind ihf
  | map f _ ih => exact ih.map f
  | both _ _ ih ih' => exact ih.both ih'
  | orElse _ _ ih ih' => exact ih.orElse ih'
  | optional _ ih => exact ih.optional
  | repeated minimum maximum _ ih => exact ih.repeated minimum maximum
  | spanned _ ih => exact ih.spanned

/-- Parsers that differ in labels, and in functions that change failures, both succeed or both fail, and where they
succeed they give the same value and leave the same stream. If they differ in labels alone, and no function that changes
failures looks at labels, their failures agree too: in what went wrong, where, and in the failures they combine, though
not in labels. -/
theorem parse_of_redecorated (p q : Parser τ α) (s : TokenStream τ) :
    (Redecorated .diagnostics p q →
      (∃ r, p.parse s = .ok r ∧ q.parse s = .ok r) ∨ ∃ e e', p.parse s = .error e ∧ q.parse s = .error e') ∧
    (Redecorated .labels p q →
      (∃ r, p.parse s = .ok r ∧ q.parse s = .ok r) ∨
        ∃ e e', p.parse s = .error e ∧ q.parse s = .error e' ∧ e.unlabelled = e'.unlabelled ∧ e.code = e'.code ∧
          e.message = e'.message ∧ e.span = e'.span) := by
  refine ⟨fun h => ?_, fun h => ?_⟩
  · rcases h.readsAlike.answers s with hok | ⟨e, e', hp, hq, -⟩
    · exact Or.inl hok
    · exact Or.inr ⟨e, e', hp, hq⟩
  · rcases h.readsAlike.answers s with hok | ⟨e, e', hp, hq, he⟩
    · exact Or.inl hok
    · have heq := he rfl
      refine Or.inr ⟨e, e', hp, hq, heq, ?_, ?_, ?_⟩
      · simpa using congrArg Failure.code heq
      · simpa using congrArg Failure.message heq
      · simpa using congrArg Failure.span heq

/-- A choice goes on after a failure, whatever it says; and where nothing is left to try, labels alone tell the failures
of two choices apart. -/
theorem parse_of_redecorated_of_choice :
    (∃ r, (((token 'a').mapFailure fun _ => .custom "Not a letter." ⟨3, 4⟩) <|> token 'b').parse (ofList ['b']) = .ok r ∧
      (token 'a' <|> token 'b').parse (ofList ['b']) = .ok r) ∧
    ∃ e e', ((token 'a').withLabel "first" <|> token 'b').parse (ofList ['x']) = .error e ∧
      ((token 'a' <|> token 'b').withLabel "letter").parse (ofList ['x']) = .error e' ∧ e.label = none ∧
      e'.label = some "letter" ∧ e.unlabelled = e'.unlabelled ∧ e.message = e'.message ∧ e.span = e'.span := by
  have hchange : Redecorated .diagnostics
      (((token 'a').mapFailure fun _ => .custom "Not a letter." ⟨3, 4⟩) <|> token 'b') (token 'a' <|> token 'b') :=
    ((Redecorated.same _).changeLeft rfl _).orElse (.same _)
  have hlabel : Redecorated .labels ((token 'a').withLabel "first" <|> token 'b')
      ((token 'a' <|> token 'b').withLabel "letter") :=
    (((Redecorated.same _).labelLeft _).orElse (.same _)).labelRight _
  refine ⟨?_, ?_⟩
  · rcases (parse_of_redecorated _ _ (ofList ['b'])).1 hchange with hok | ⟨e, e', he, -⟩
    · exact hok
    · nomatch he
  · rcases (parse_of_redecorated _ _ (ofList ['x'])).2 hlabel with ⟨r, hr, -⟩ | ⟨e, e', he, he', hun, -, hmessage, hspan⟩
    · nomatch hr
    · refine ⟨e, e', he, he', ?_, ?_, hun, hmessage, hspan⟩
      · cases he
        rfl
      · cases he'
        rfl

end Parser

end TokenParsing
