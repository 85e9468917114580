import TokenParsing.Proofs.Parser.Outcomes

/-!
# Choices among several parsers

A choice among several parsers is made of choices between two, and there are as many ways to make it as there are ways
to put brackets (`Bracketing`). Which parser answers does not depend on the brackets: it is the first one that succeeds,
run where the choice was entered. When none succeeds the brackets show: the failure is the tree of the failures of all
the parsers (`Combines`). But neither the tokens it points at (`Combines.hull`) nor the order of the sentences it quotes
(`Combines.inOrder`) depend on them.
-/

namespace TokenParsing

/-! ## The span of several spans -/

/-- The span from the smallest start of some spans to the largest end of them. -/
structure Span.Hull (spans : List Span) (s : Span) : Prop where
  start_le : ∀ t ∈ spans, s.start ≤ t.start
  start_mem : ∃ t ∈ spans, t.start = s.start
  le_stop : ∀ t ∈ spans, t.stop ≤ s.stop
  stop_mem : ∃ t ∈ spans, t.stop = s.stop

theorem Span.hull_singleton (s : Span) : Span.Hull [s] s := by
  refine ⟨?_, ⟨s, List.mem_singleton_self s, rfl⟩, ?_, ⟨s, List.mem_singleton_self s, rfl⟩⟩
  · intro t ht
    obtain rfl := List.mem_singleton.1 ht
    exact Nat.le_refl _
  · intro t ht
    obtain rfl := List.mem_singleton.1 ht
    exact Nat.le_refl _

/-- Merging spans takes hulls to the hull of all. -/
theorem Span.Hull.merge {ss ts : List Span} {s t : Span} (hs : Span.Hull ss s) (ht : Span.Hull ts t) :
    Span.Hull (ss ++ ts) (s.merge t) where
  start_le := by
    intro u hu
    rcases List.mem_append.1 hu with hu | hu
    · exact Nat.le_trans (Nat.min_le_left _ _) (hs.start_le u hu)
    · exact Nat.le_trans (Nat.min_le_right _ _) (ht.start_le u hu)
  start_mem := by
    obtain ⟨u, hu, hus⟩ := hs.start_mem
    obtain ⟨v, hv, hvs⟩ := ht.start_mem
    rcases Nat.le_total s.start t.start with hle | hle
    · exact ⟨u, List.mem_append_left ts hu, by rw [hus, Span.merge, Nat.min_eq_left hle]⟩
    · exact ⟨v, List.mem_append_right ss hv, by rw [hvs, Span.merge, Nat.min_eq_right hle]⟩
  le_stop := by
    intro u hu
    rcases List.mem_append.1 hu with hu | hu
    · exact Nat.le_trans (hs.le_stop u hu) (Nat.le_max_left _ _)
    · exact Nat.le_trans (ht.le_stop u hu) (Nat.le_max_right _ _)
  stop_mem := by
    obtain ⟨u, hu, hus⟩ := hs.stop_mem
    obtain ⟨v, hv, hvs⟩ := ht.stop_mem
    rcases Nat.le_total s.stop t.stop with hle | hle
    · exact ⟨v, List.mem_append_right ss hv, by rw [hvs, Span.merge, Nat.max_eq_right hle]⟩
    · exact ⟨u, List.mem_append_left ts hu, by rw [hus, Span.merge, Nat.max_eq_left hle]⟩

/-- Some spans have no more than one hull. -/
theorem Span.Hull.unique {spans : List Span} {s t : Span} (hs : Span.Hull spans s) (ht : Span.Hull spans t) :
    s = t := by
  obtain ⟨u, hu, hus⟩ := hs.start_mem
  obtain ⟨v, hv, hvs⟩ := ht.start_mem
  obtain ⟨x, hx, hxs⟩ := hs.stop_mem
  obtain ⟨y, hy, hys⟩ := ht.stop_mem
  have hstart : s.start = t.start :=
    Nat.le_antisymm (hvs ▸ hs.start_le v hv) (hus ▸ ht.start_le u hu)
  have hstop : s.stop = t.stop :=
    Nat.le_antisymm (hxs ▸ ht.le_stop x hx) (hys ▸ hs.le_stop y hy)
  obtain ⟨a, b⟩ := s
  obtain ⟨c, d⟩ := t
  exact Span.mk.injEq a b c d ▸ ⟨hstart, hstop⟩

/-! ## Words in order -/

/-- Words that occur in a text one after the other, with anything before, between and after them. -/
inductive InOrder : List (List Char) → List Char → Prop where
  | nil (cs : List Char) : InOrder [] cs
  | cons {ws : List (List Char)} {cs : List Char} (gap w : List Char) (h : InOrder ws cs) :
      InOrder (w :: ws) (gap ++ (w ++ cs))

theorem inOrder_self (w : List Char) : InOrder [w] w := by
  simpa using InOrder.cons [] w (.nil [])

theorem InOrder.after {ws : List (List Char)} {cs : List Char} (h : InOrder ws cs) (before : List Char) :
    InOrder ws (before ++ cs) := by
  cases h with
  | nil => exact .nil _
  | cons gap w h =>
    rw [← List.append_assoc]
    exact .cons (before ++ gap) w h

/-- Words in one text and words in another are in order in a text that holds both. -/
theorem InOrder.append {ws us : List (List Char)} {cs ds : List Char} (h : InOrder ws cs) (h' : InOrder us ds) :
    InOrder (ws ++ us) (cs ++ ds) := by
  induction h with
  | nil cs => exact h'.after cs
  | cons gap w _ ih =>
    rw [List.append_assoc, List.append_assoc]
    exact .cons gap w ih

namespace Parser

variable {τ α β : Type}

/-! ## Bracketings -/

/-- A way to put brackets around the items of a list, so that they are joined two by two and in order. -/
inductive Bracketing (α : Type) where
  | leaf (item : α)
  | join (left right : Bracketing α)

namespace Bracketing

/-- The items, in order. -/
def leaves : Bracketing α → List α
  | leaf a => [a]
  | join l r => l.leaves ++ r.leaves

/-- The number of times that two things are joined. -/
def joins : Bracketing α → Nat
  | leaf _ => 0
  | join l r => l.joins + r.joins + 1

/-- The choice among some parsers, made of choices between two as the brackets say. -/
def choice : Bracketing (Parser τ α) → Parser τ α
  | leaf p => p
  | join l r => l.choice.orElse r.choice

/-- The same brackets around items that are related one by one. -/
inductive Alike (R : α → β → Prop) : Bracketing α → Bracketing β → Prop where
  | leaf {a : α} {b : β} (h : R a b) : Alike R (.leaf a) (.leaf b)
  | join {l r : Bracketing α} {l' r' : Bracketing β} (hl : Alike R l l') (hr : Alike R r r') :
      Alike R (.join l r) (.join l' r')

/-- Joining `n` items takes `n - 1` joins. -/
theorem joins_add_one (t : Bracketing α) : t.joins + 1 = t.leaves.length := by
  induction t with
  | leaf a => rfl
  | join l r hl hr =>
    rw [joins, leaves, List.length_append, ← hl, ← hr]
    omega

theorem Alike.joins_eq {R : α → β → Prop} {t : Bracketing α} {u : Bracketing β} (h : Alike R t u) :
    u.joins = t.joins := by
  induction h with
  | leaf h => rfl
  | join _ _ ihl ihr => rw [joins, joins, ihl, ihr]

end Bracketing

open Bracketing

/-- The failure that some failures make when they are combined as the brackets say. Every combined failure has no label
and points from the first token to the last that the failures in it point at. -/
inductive Combines : Bracketing Failure → Failure → Prop where
  | leaf (e : Failure) : Combines (.leaf e) e
  | join {l r : Bracketing Failure} {e f : Failure} {sp : Span} (hl : Combines l e) (hr : Combines r f)
      (hspan : Span.Hull ((l.leaves ++ r.leaves).map Failure.span) sp) : Combines (.join l r) (.combined e f sp none)

/-- Combined failures point where the failures in them do, whatever the brackets. -/
theorem Combines.hull {fs : Bracketing Failure} {f : Failure} (h : Combines fs f) :
    Span.Hull (fs.leaves.map Failure.span) f.span := by
  cases h with
  | leaf => exact Span.hull_singleton _
  | join _ _ hspan => exact hspan

/-- The failure of a choice combines those of its alternatives. -/
theorem Combines.combine {l r : Bracketing Failure} {e f : Failure} (hl : Combines l e) (hr : Combines r f) :
    Combines (.join l r) (.combine e f) := by
  refine .join hl hr ?_
  rw [List.map_append]
  exact hl.hull.merge hr.hull

/-- Combined failures quote the sentences of the failures in them, in order. -/
theorem Combines.inOrder {fs : Bracketing Failure} {f : Failure} (h : Combines fs f) :
    InOrder (fs.leaves.map fun e => e.message.toList) f.message.toList := by
  induction h with
  | leaf e => exact inOrder_self _
  | join _ _ _ ihl ihr =>
    rw [leaves, List.map_append, Failure.message_combined]
    simp only [String.toList_append, List.append_assoc]
    exact (ihl.append (ihr.after _)).after _

/-! ## What a choice answers -/

/-- The failures of some parsers are what these answer, in order. -/
theorem Bracketing.Alike.map_parse {t : Bracketing (Parser τ α)} {fs : Bracketing Failure} {s : TokenStream τ}
    (h : t.Alike (fun p e => p.parse s = .error e) fs) :
    t.leaves.map (fun p => p.parse s) = fs.leaves.map Except.error := by
  induction h with
  | leaf h => exact congrArg (fun a => [a]) h
  | join _ _ ihl ihr => rw [leaves, leaves, List.map_append, List.map_append, ihl, ihr]

/-- Where some parsers have failures, every one of them fails. -/
theorem Bracketing.Alike.exists_error {t : Bracketing (Parser τ α)} {fs : Bracketing Failure} {s : TokenStream τ}
    (h : t.Alike (fun p e => p.parse s = .error e) fs) {p : Parser τ α} (hp : p ∈ t.leaves) :
    ∃ e, p.parse s = .error e := by
  have hmem : p.parse s ∈ fs.leaves.map Except.error := h.map_parse ▸ List.mem_map_of_mem hp
  obtain ⟨e, -, he⟩ := List.mem_map.1 hmem
  exact ⟨e, he.symm⟩

/-- Either a parser of a choice succeeds after others that fail, and the choice answers what it does; or all of them
fail, and the choice fails with their failures combined. -/
theorem exists_first_or_combines (t : Bracketing (Parser τ α)) (s : TokenStream τ) :
    (∃ before p after r, t.leaves = before ++ p :: after ∧ (∀ q ∈ before, ∃ e, q.parse s = .error e) ∧
        p.parse s = .ok r ∧ t.choice.parse s = .ok r) ∨
      ∃ fs f, t.Alike (fun p e => p.parse s = .error e) fs ∧ Combines fs f ∧ t.choice.parse s = .error f := by
  induction t with
  | leaf p =>
    cases hp : p.parse s with
    | ok r => exact Or.inl ⟨[], p, [], r, rfl, by simp, hp, hp⟩
    | error e => exact Or.inr ⟨.leaf e, e, .leaf hp, .leaf e, hp⟩
  | join l r ihl ihr =>
    rw [choice, parse_orElse]
    rcases ihl with ⟨before, p, after, a, hleaves, hbefore, hp, hl⟩ | ⟨fs, f, hfs, hf, hl⟩
    · refine Or.inl ⟨before, p, after ++ r.leaves, a, ?_, hbefore, hp, by rw [hl]⟩
      rw [leaves, hleaves, List.append_assoc, List.cons_append]
    · rw [hl]
      rcases ihr with ⟨before, p, after, a, hleaves, hbefore, hp, hr⟩ | ⟨gs, g, hgs, hg, hr⟩
      · refine Or.inl ⟨l.leaves ++ before, p, after, a, ?_, ?_, hp, by rw [hr]⟩
        · rw [leaves, hleaves, List.append_assoc]
        · intro q hq
          rcases List.mem_append.1 hq with hq | hq
          · exact hfs.exists_error hq
          · exact hbefore q hq
      · exact Or.inr ⟨.join fs gs, .combine f g, .join hfs hgs, hf.combine hg, by rw [hr]⟩

/-- A choice among parsers that all fail fails with brackets anywhere, and points at the same tokens. -/
theorem Bracketing.Alike.exists_parse_eq_error {t t' : Bracketing (Parser τ α)} {fs : Bracketing Failure} {f : Failure}
    {s : TokenStream τ} (hfs : t.Alike (fun p e => p.parse s = .error e) fs) (hf : Combines fs f)
    (ht' : t'.leaves = t.leaves) : ∃ f', t'.choice.parse s = .error f' ∧ f'.span = f.span := by
  rcases exists_first_or_combines t' s with ⟨before, p, after, r, hleaves, -, hp, -⟩ | ⟨gs, g, hgs, hg, hparse⟩
  · have hmem : p ∈ t.leaves := by
      rw [← ht', hleaves]
      exact List.mem_append_right before List.mem_cons_self
    obtain ⟨e, he⟩ := hfs.exists_error hmem
    cases hp.symm.trans he
  · have hmap : gs.leaves.map (Except.error : Failure → Outcome τ α) = fs.leaves.map Except.error := by
      rw [← hgs.map_parse, ← hfs.map_parse, ht']
    have hleaves : gs.leaves = fs.leaves := List.map_inj_right (fun _ _ h => Except.error.inj h) |>.1 hmap
    refine ⟨g, hparse, hg.hull.unique ?_⟩
    rw [hleaves]
    exact hf.hull

/-- A choice among several parsers, with brackets put anywhere, answers what the first parser that succeeds answers
where the choice was entered, whatever the parsers before it read until they failed. If all of them fail, so does the
choice: its failure is made of their failures as the brackets say, one combined failure for every choice between two,
each of them without a label and from the first token to the last that the failures in it point at. So it points at the
same tokens with any other brackets, and it quotes the sentences of all the failures in order. -/
theorem Bracketing.parse_choice (t : Bracketing (Parser τ α)) (s : TokenStream τ) :
    (∃ before p after r, t.leaves = before ++ p :: after ∧ (∀ q ∈ before, ∃ e, q.parse s = .error e) ∧
        p.parse s = .ok r ∧ t.choice.parse s = .ok r) ∨
      ∃ fs f, t.Alike (fun p e => p.parse s = .error e) fs ∧ t.choice.parse s = .error f ∧ Combines fs f ∧
        fs.joins + 1 = t.leaves.length ∧
        (∀ t' : Bracketing (Parser τ α), t'.leaves = t.leaves →
          ∃ f', t'.choice.parse s = .error f' ∧ f'.span = f.span) ∧
        InOrder (fs.leaves.map fun e => e.message.toList) f.message.toList := by
  rcases exists_first_or_combines t s with hfirst | ⟨fs, f, hfs, hf, hparse⟩
  · exact Or.inl hfirst
  · have hjoins : fs.joins + 1 = t.leaves.length := by
      rw [hfs.joins_eq, joins_add_one]
    exact Or.inr ⟨fs, f, hfs, hparse, hf, hjoins, fun t' ht' => hfs.exists_parse_eq_error hf ht', hf.inOrder⟩

/-- Three failures at three places, those of the last two parsers combined first. -/
example :
    (join (.leaf (take 1 *> fail "left")) (.join (.leaf (take 3)) (.leaf (take 2 *> zero)))).choice.parse
        (TokenStream.ofList ['a', 'b']) =
      .error (.combined (.single (.custom "left") ⟨1, 2⟩ (some "fail"))
        (.combined (.single .endOfInput ⟨0, 1⟩ (some "take")) (.single (.custom "Zero parser.") ⟨2, 3⟩ (some "zero"))
          ⟨0, 3⟩ none)
        ⟨0, 3⟩ none) := rfl

end Parser

end TokenParsing
