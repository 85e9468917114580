import TokenParsing.Proofs.Parser.Outcomes

/-!
# Laws of combinators

A parser is known by what it answers: two parsers agree when they give the same answer on every stream, a failure with
its labels and spans included (`Agree`). Up to agreement `succeed` and `bind` obey the laws of a monad, whatever labels
the parsers carry, and the other ways to read parts in turn are what `bind` and `succeed` make of them, however they are
made themselves. Agreement is kept by `bind`, so one law can be used inside another. A beginning that two alternatives
share can be read once for both (`parse_orElse_both`): what is read is the same, and only the failure at the beginning
itself differs.
-/

namespace TokenParsing.Parser

variable {τ α β γ : Type}

/-! ## Agreement -/

/-- Two parsers that give the same answer on every stream. -/
def Agree (p q : Parser τ α) : Prop :=
  ∀ s, p.parse s = q.parse s

/-- A parser agrees with itself. -/
theorem Agree.refl (p : Parser τ α) : Agree p p :=
  fun _ => rfl

/-- Agreement is passed on. -/
theorem Agree.trans {p q r : Parser τ α} (h : Agree p q) (h' : Agree q r) : Agree p r :=
  fun s => (h s).trans (h' s)

instance : Trans (@Agree τ α) (@Agree τ α) (@Agree τ α) :=
  ⟨Agree.trans⟩

/-- Parts of a sequence can be replaced by parsers that agree with them. -/
theorem Agree.bind {p q : Parser τ α} {f g : α → Parser τ β} (h : Agree p q) (hf : ∀ a, Agree (f a) (g a)) :
    Agree (p.bind f) (q.bind g) := by
  intro s
  rw [parse_bind, parse_bind, h s]
  cases q.parse s with
  | error e => rfl
  | ok r => exact hf r.value r.remaining

/-- The second part of a sequence can be replaced. -/
theorem Agree.bind_right (p : Parser τ α) {f g : α → Parser τ β} (hf : ∀ a, Agree (f a) (g a)) :
    Agree (p.bind f) (p.bind g) :=
  (Agree.refl p).bind hf

/-! ## The laws of a monad -/

/-- Nothing is read before a parser that is made of a given value. -/
theorem agree_succeed_bind (a : α) (f : α → Parser τ β) : Agree ((succeed a).bind f) (f a) := by
  intro s
  rw [parse_bind, parse_succeed]

/-- Giving the value that was read changes nothing; a label is written on a failure where it is met. -/
theorem agree_bind_succeed (p : Parser τ α) : Agree (p.bind succeed) p := by
  intro s
  rw [parse_bind]
  cases p.parse s <;> rfl

/-- Parts may be grouped either way. -/
theorem agree_bind_bind (p : Parser τ α) (f : α → Parser τ β) (g : β → Parser τ γ) :
    Agree ((p.bind f).bind g) (p.bind fun a => (f a).bind g) := by
  intro s
  simp only [parse_bind]
  cases p.parse s <;> rfl

/-! ## Sequences made of `bind` and `succeed` -/

/-- To map is to succeed with the image of what is read. -/
theorem agree_map (f : α → β) (p : Parser τ α) : Agree (p.map f) (p.bind fun a => succeed (f a)) := by
  intro s
  rw [parse_map, parse_bind]
  cases p.parse s <;> rfl

/-- To read both is to read one, then the other, and to succeed with the pair. -/
theorem agree_both (p : Parser τ α) (q : Parser τ β) :
    Agree (p.both q) (p.bind fun a => q.bind fun b => succeed (a, b)) := by
  intro s
  rw [parse_both, parse_bind]
  cases p.parse s with
  | error e => rfl
  | ok r =>
    dsimp only
    rw [parse_bind]
    cases q.parse r.remaining <;> rfl

/-- Keeping the first value of two is forgetting the second one as soon as it is read. -/
theorem agree_keepLeft (p : Parser τ α) (q : Parser τ β) :
    Agree (p.keepLeft q) (p.bind fun a => q.bind fun _ => succeed a) := by
  calc
    Agree ((p.both q).map Prod.fst) ((p.both q).bind fun x => succeed x.1) := agree_map Prod.fst (p.both q)
    Agree _ ((p.bind fun a => q.bind fun b => succeed (a, b)).bind fun x => succeed x.1) :=
      (agree_both p q).bind fun x => .refl (succeed x.1)
    Agree _ (p.bind fun a => (q.bind fun b => succeed (a, b)).bind fun x => succeed x.1) := agree_bind_bind p _ _
    Agree _ (p.bind fun a => q.bind fun b => (succeed (a, b)).bind fun x => succeed x.1) :=
      .bind_right p fun a => agree_bind_bind q _ _
    Agree _ (p.bind fun a => q.bind fun _ => succeed a) :=
      .bind_right p fun a => .bind_right q fun b => agree_succeed_bind (a, b) _

/-- Reading between two other parsers is reading three parts and keeping the value of the middle one. -/
theorem agree_between (p : Parser τ α) (opening : Parser τ β) (closing : Parser τ γ) :
    Agree (p.between opening closing) (opening.bind fun _ => p.bind fun a => closing.bind fun _ => succeed a) := by
  calc
    Agree ((opening.keepRight p).keepLeft closing)
        ((opening.bind fun _ => p).bind fun a => closing.bind fun _ => succeed a) := agree_keepLeft _ closing
    Agree _ (opening.bind fun _ => p.bind fun a => closing.bind fun _ => succeed a) := agree_bind_bind opening _ _

/-- To fold is to succeed with the folded values. -/
theorem agree_fold (f : α → β → α) (p : Parser τ (α × List β)) :
    Agree (fold f p) (p.bind fun x => succeed (x.2.foldl f x.1)) :=
  agree_map _ p

/-! ## Choices -/

/-- An optional part is a choice that is left with nothing to read. -/
theorem agree_optional (p : Parser τ α) : Agree p.optional ((p.map some).orElse (succeed none)) := by
  intro s
  rw [parse_optional, parse_orElse, parse_map]
  cases p.parse s <;> rfl

/-- Alternatives that begin alike answer as one beginning before a choice does, except that where the beginning fails
it fails once for each of them. -/
theorem parse_orElse_both (p : Parser τ α) (q q' : Parser τ β) (s : TokenStream τ) :
    ((p.both q).orElse (p.both q')).parse s =
      match p.parse s with
      | .error e => .error (.combine e e)
      | .ok _ => (p.both (q.orElse q')).parse s := by
  simp only [parse_orElse, parse_both]
  cases p.parse s with
  | error e => rfl
  | ok r =>
    dsimp only
    cases q.parse r.remaining with
    | ok r₁ => rfl
    | error e₁ => cases q'.parse r.remaining <;> rfl

/-- A beginning that two alternatives share can be read once for both. -/
theorem parse_orElse_both_eq_ok_iff {p : Parser τ α} {q q' : Parser τ β} {s : TokenStream τ}
    {r : Success τ (α × β)} :
    ((p.both q).orElse (p.both q')).parse s = .ok r ↔ (p.both (q.orElse q')).parse s = .ok r := by
  rw [parse_orElse_both]
  cases hp : p.parse s with
  | error e =>
    rw [parse_both, hp]
    simp
  | ok r₁ => rfl

/-- Where the beginning fails, alternatives that share it tell so twice. -/
example :
    let s := TokenStream.ofList ['a']
    ((zero.both (token 'a')).orElse (zero.both (token 'b')) : Parser Char (Unit × Char)).parse s =
        .error (.combine (.single (.custom "Zero parser.") ⟨0, 1⟩ (some "zero"))
          (.single (.custom "Zero parser.") ⟨0, 1⟩ (some "zero"))) ∧
      (zero.both ((token 'a').orElse (token 'b')) : Parser Char (Unit × Char)).parse s =
        .error (.single (.custom "Zero parser.") ⟨0, 1⟩ (some "zero")) :=
  ⟨rfl, rfl⟩

/-! ## All of them -/

/-- Reading in turn obeys the laws of a monad, and every way to read parts in turn, by name or by operator, is made of
`bind` and `succeed`: parsers on either side of a law give the same values, leave the same streams and fail with the
same failures, labels and spans included. An optional part is a choice with nothing, padding is put around a parser by
optional parts, and a beginning that two alternatives share can be read once for both. -/
theorem combinators_agree (p : Parser τ α) (q : Parser τ β) (r : Parser τ γ) :
    (∀ (a : α) (f : α → Parser τ β), Agree ((succeed a).bind f) (f a)) ∧
      Agree (p.bind succeed) p ∧
      (∀ (f : α → Parser τ β) (g : β → Parser τ γ), Agree ((p.bind f).bind g) (p.bind fun a => (f a).bind g)) ∧
      (∀ f : α → β, Agree (p.map f) (p.bind fun a => succeed (f a)) ∧ Agree (p >>> f) (p.bind fun a => succeed (f a))) ∧
      Agree (p.both q) (p.bind fun a => q.bind fun b => succeed (a, b)) ∧
      Agree (p + q) (p.bind fun a => q.bind fun b => succeed (a, b)) ∧
      Agree (p.keepLeft q) (p.bind fun a => q.bind fun _ => succeed a) ∧
      Agree (p - q) (p.bind fun a => q.bind fun _ => succeed a) ∧
      Agree (p.keepRight q) (p.bind fun _ => q) ∧
      Agree (p * q) (p.bind fun _ => q) ∧
      Agree (p.between q r) (q.bind fun _ => p.bind fun a => r.bind fun _ => succeed a) ∧
      (∀ (f : α → β → α) (c : Parser τ (α × List β)), Agree (fold f c) (c.bind fun x => succeed (x.2.foldl f x.1))) ∧
      Agree p.optional ((p.map some).orElse (succeed none)) ∧
      Agree (p.padded q) (p.between q.optional q.optional) ∧
      ∀ (q' : Parser τ β) (s : TokenStream τ) (x : Success τ (α × β)),
        ((p.both q).orElse (p.both q')).parse s = .ok x ↔ (p.both (q.orElse q')).parse s = .ok x := by
  refine ⟨agree_succeed_bind, agree_bind_succeed p, agree_bind_bind p, fun f => ⟨agree_map f p, agree_map f p⟩,
    agree_both p q, agree_both p q, agree_keepLeft p q, agree_keepLeft p q, .refl _, .refl _, agree_between p q r,
    agree_fold, agree_optional p, .refl _, ?_⟩
  intro q' s x
  exact parse_orElse_both_eq_ok_iff

end TokenParsing.Parser
