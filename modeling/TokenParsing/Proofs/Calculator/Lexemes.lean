import TokenParsing.Calculator.Token
import TokenParsing.Proofs.Decimal.Reading
import TokenParsing.Proofs.Parser.Runs

/-!
# The words of arithmetic

What an arithmetic text is made of, said about its characters and not about a parser: blanks, symbols and numbers
(`Lexical`), where a number takes in all the characters that can belong to it. `Scans` says which tokens such a text
has, each with the span of its characters. A text can be cut at any of its words (`Scans.exists_split`), and parts put
together where no number runs on from one into the next (`Scans.before`, `Scans.append`). From this come the places of the
tokens in the text (`Scans.tokenized`) and the tokens of the part of a text between two of them (`Scans.covered`).
-/

namespace TokenParsing.Calculator

/-! ## Words -/

/-- Digits, at least one of them. -/
structure Digits (cs : List Char) : Prop where
  ne_nil : cs ≠ []
  isDigit : ∀ c ∈ cs, c.isDigit = true

/-- The ways to write a number: digits, and a point and more digits if it has a fraction. -/
inductive Numeral : List Char → Prop where
  | whole {ds : List Char} (h : Digits ds) : Numeral ds
  | pointed {ds fs : List Char} (h : Digits ds) (hf : Digits fs) : Numeral (ds ++ '.' :: fs)

/-- The characters start with a point and a digit. -/
def StartsFraction (cs : List Char) : Prop :=
  ∃ d cs', cs = '.' :: d :: cs' ∧ d.isDigit = true

/-- A number ends before the given characters: they do not start with a digit nor, unless the number has a fraction,
with the point and the first digit of one. -/
structure NumeralEnds (cs rest : List Char) : Prop where
  digit : StopsAt Char.isDigit rest
  fraction : '.' ∉ cs → ¬StartsFraction rest

/-- The characters of a token of a kind, before the given ones. -/
inductive Lexeme : TokenKind → List Char → List Char → Prop where
  | symbol (s : Symbol) (rest : List Char) : Lexeme (.symbol s) [s.char] rest
  | number {cs rest : List Char} {v : Float} (h : Numeral cs) (hv : Decimal.read? (String.ofList cs) = some v)
      (hend : NumeralEnds cs rest) : Lexeme (.number v) cs rest

/-- A text of blanks, symbols and numbers. -/
inductive Lexical : List Char → Prop where
  | nil : Lexical []
  | blank {c : Char} {cs : List Char} (hc : c ∈ Text.blanks) (h : Lexical cs) : Lexical (c :: cs)
  | symbol (s : Symbol) {cs : List Char} (h : Lexical cs) : Lexical (s.char :: cs)
  | number {ds cs : List Char} (hd : Numeral ds) (hend : NumeralEnds ds cs) (h : Lexical cs) : Lexical (ds ++ cs)

/-- The characters from position `i` up to the given rest have the given tokens. -/
inductive Scans (rest : List Char) : (i : Nat) → List Char → List Token → Prop where
  | nil (i : Nat) : Scans rest i [] []
  | blank {i : Nat} {c : Char} {cs : List Char} {ts : List Token} (hc : c ∈ Text.blanks)
      (h : Scans rest (i + 1) cs ts) : Scans rest i (c :: cs) ts
  | token {i : Nat} {k : TokenKind} {lex cs : List Char} {ts : List Token} (hk : Lexeme k lex (cs ++ rest))
      (h : Scans rest (i + lex.length) cs ts) : Scans rest i (lex ++ cs) (⟨k, ⟨i, i + lex.length⟩⟩ :: ts)

/-- The token moved `distance` characters away from the origin. -/
def Token.shift (distance : Nat) (t : Token) : Token :=
  ⟨t.kind, t.span.shift distance⟩

/-! ## Numbers -/

theorem isDigit_point : '.'.isDigit = false := rfl

theorem Digits.point_not_mem {ds : List Char} (h : Digits ds) : '.' ∉ ds := by
  intro hmem
  nomatch h.isDigit '.' hmem

/-- A number starts with a digit. -/
theorem Numeral.exists_cons {cs : List Char} (h : Numeral cs) : ∃ d cs', cs = d :: cs' ∧ d.isDigit = true := by
  have hdigits : ∀ {ds : List Char}, Digits ds → ∃ d ds', ds = d :: ds' ∧ d.isDigit = true := by
    intro ds hds
    obtain ⟨d, ds', rfl⟩ := List.exists_cons_of_ne_nil hds.ne_nil
    exact ⟨d, ds', rfl, hds.isDigit d List.mem_cons_self⟩
  cases h with
  | whole h => exact hdigits h
  | pointed h _ =>
    obtain ⟨d, ds', rfl, hd⟩ := hdigits h
    exact ⟨d, _, rfl, hd⟩

/-- A number is read by its digits. -/
theorem Numeral.read?_eq {cs : List Char} (h : Numeral cs) :
    Decimal.read? (String.ofList cs) = Decimal.digits? cs := by
  obtain ⟨d, cs', rfl, hd⟩ := h.exists_cons
  exact Decimal.read?_of_isDigit hd cs'

/-- Every number that can be written can be read. -/
theorem Numeral.exists_read {cs : List Char} (h : Numeral cs) : ∃ v, Decimal.read? (String.ofList cs) = some v := by
  rw [h.read?_eq]
  cases h with
  | whole h => exact ⟨_, Decimal.digits?_whole h.ne_nil h.isDigit⟩
  | pointed h hf => exact ⟨_, Decimal.digits?_pointed h.ne_nil h.isDigit hf.isDigit⟩

/-! ## The longest number -/

/-- Characters that start with a digit start with digits up to the first character that is none. -/
theorem exists_digits {d : Char} (hd : d.isDigit = true) (cs : List Char) :
    ∃ ds rest, d :: cs = ds ++ rest ∧ Digits ds ∧ StopsAt Char.isDigit rest := by
  refine ⟨_, _, (List.takeWhile_append_dropWhile (p := Char.isDigit)).symm, ⟨?_, fun c hc => ?_⟩,
    stopsAt_dropWhile _ _⟩
  · rw [List.takeWhile_cons_of_pos hd]
    exact List.cons_ne_nil _ _
  · exact List.all_eq_true.mp List.all_takeWhile c hc

/-- Characters that start with a digit start with a number. -/
theorem exists_numeral {d : Char} (hd : d.isDigit = true) (cs : List Char) :
    ∃ lex rest, d :: cs = lex ++ rest ∧ Numeral lex ∧ NumeralEnds lex rest := by
  obtain ⟨ds, rest, hcs, hds, hstop⟩ := exists_digits hd cs
  by_cases hstarts : StartsFraction rest
  · obtain ⟨f, cs', rfl, hf⟩ := hstarts
    obtain ⟨fs, rest, hcs', hfs, hstop⟩ := exists_digits hf cs'
    refine ⟨ds ++ '.' :: fs, rest, ?_, .pointed hds hfs, hstop, fun hpoint => ?_⟩
    · rw [hcs, hcs', List.append_assoc, List.cons_append]
    · exact absurd (List.mem_append_right ds List.mem_cons_self) hpoint
  · exact ⟨ds, rest, hcs, .whole hds, hstop, fun _ => hstarts⟩

/-! ## Words and what follows them -/

theorem StartsFraction.append {cs : List Char} (h : StartsFraction cs) (rest : List Char) :
    StartsFraction (cs ++ rest) := by
  obtain ⟨d, cs', rfl, hd⟩ := h
  exact ⟨d, cs' ++ rest, rfl, hd⟩

/-- A word that ends before some characters ends before the first ones of them alone. -/
theorem Lexeme.of_append {k : TokenKind} {lex cs rest : List Char} (h : Lexeme k lex (cs ++ rest)) :
    Lexeme k lex cs := by
  cases h with
  | symbol s => exact .symbol s cs
  | number hn hv hend =>
    exact .number hn hv ⟨hend.digit.of_append, fun hpoint hstarts => hend.fraction hpoint (hstarts.append rest)⟩

/-- Characters with which no blank and no word begins. -/
def Stuck (cs : List Char) : Prop :=
  ∀ c, cs.head? = some c → c ∉ Text.blanks ∧ c.isDigit = false ∧ Symbol.ofChar? c = none

theorem not_mem_blanks_of_isDigit {c : Char} (h : c.isDigit = true) : c ∉ Text.blanks := by
  intro hb
  simp only [Text.blanks, List.mem_cons, List.not_mem_nil, or_false] at hb
  rcases hb with rfl | rfl | rfl | rfl <;> nomatch h

theorem Symbol.char_not_mem_blanks (s : Symbol) : s.char ∉ Text.blanks := by
  cases s <;> decide

theorem Symbol.isDigit_char (s : Symbol) : s.char.isDigit = false := by
  cases s <;> rfl

theorem Symbol.ofChar?_char (s : Symbol) : Symbol.ofChar? s.char = some s :=
  (Symbol.ofChar?_eq_some_iff _ s).2 rfl

/-- Characters that no number goes on with. -/
structure Breaks (cs : List Char) : Prop where
  digit : StopsAt Char.isDigit cs
  fraction : ¬StartsFraction cs

theorem breaks_symbol (s : Symbol) (cs : List Char) : Breaks (s.char :: cs) where
  digit := stopsAt_cons s.isDigit_char cs
  fraction := by
    rintro ⟨d, cs', heq, -⟩
    cases s <;> nomatch heq

/-- A word stays one when characters follow that no number goes on with. -/
theorem Lexeme.append {k : TokenKind} {lex cs rest : List Char} (h : Lexeme k lex cs) (hrest : Breaks rest) :
    Lexeme k lex (cs ++ rest) := by
  cases h with
  | symbol s => exact .symbol s (cs ++ rest)
  | number hn hv hend =>
    refine .number hn hv ⟨?_, ?_⟩
    · cases cs with
      | nil => exact hrest.digit
      | cons c cs => exact fun d hd => hend.digit d hd
    · -- a point at the very end is not followed by a digit either
      rintro hpoint ⟨d, cs', heq, hd⟩
      match cs with
      | [] => exact hrest.fraction ⟨d, cs', heq, hd⟩
      | [c] =>
        obtain ⟨-, rfl⟩ := List.cons.inj heq
        nomatch (hrest.digit d rfl).symm.trans hd
      | c :: c' :: cs =>
        cases heq
        exact hend.fraction hpoint ⟨d, cs, rfl, hd⟩

/-- A word starts with a character that is no blank and that begins a number or is a symbol. -/
theorem Lexeme.exists_cons {k : TokenKind} {lex rest : List Char} (h : Lexeme k lex rest) :
    ∃ c lex', lex = c :: lex' ∧ c ∉ Text.blanks ∧ (c.isDigit = true ∨ Symbol.ofChar? c ≠ none) := by
  cases h with
  | symbol s =>
    refine ⟨s.char, [], rfl, s.char_not_mem_blanks, Or.inr ?_⟩
    rw [s.ofChar?_char]
    exact Option.some_ne_none s
  | number hn hv hend =>
    obtain ⟨d, cs', rfl, hd⟩ := hn.exists_cons
    exact ⟨d, cs', rfl, not_mem_blanks_of_isDigit hd, Or.inl hd⟩

theorem Lexeme.length_pos {k : TokenKind} {lex rest : List Char} (h : Lexeme k lex rest) : 0 < lex.length := by
  obtain ⟨c, lex', rfl, -⟩ := h.exists_cons
  exact Nat.succ_pos _

/-- No word stands where none begins. -/
theorem Stuck.not_lexeme {k : TokenKind} {lex cs rest : List Char} (h : Stuck (lex ++ cs)) : ¬Lexeme k lex rest := by
  intro hk
  obtain ⟨c, lex', rfl, -, hc⟩ := hk.exists_cons
  obtain ⟨-, hdigit, hsymbol⟩ := h c rfl
  rcases hc with hd | hs
  · nomatch hdigit.symm.trans hd
  · exact hs hsymbol

/-! ## Texts and their tokens -/

section Scans

variable {rest cs : List Char} {i : Nat} {ts us ws : List Token} {t : Token}

theorem Scans.blanks {bs : List Char} (hb : ∀ c ∈ bs, c ∈ Text.blanks) (h : Scans rest (i + bs.length) cs ts) :
    Scans rest i (bs ++ cs) ts := by
  induction bs generalizing i with
  | nil => exact h
  | cons b bs ih =>
    refine .blank (hb b List.mem_cons_self) (ih (fun c hc => hb c (List.mem_cons_of_mem b hc)) ?_)
    rwa [Nat.add_assoc, Nat.add_comm 1]

/-- What is read before a rest is read as well before the first part of it alone. -/
theorem Scans.of_append {more : List Char} (h : Scans (rest ++ more) i cs ts) : Scans rest i cs ts := by
  induction h with
  | nil i => exact .nil i
  | blank hc _ ih => exact .blank hc ih
  | @token i k lex cs ts hk _ ih =>
    rw [← List.append_assoc] at hk
    exact .token hk.of_append ih

/-- What is read before a rest is read as well when it is the whole text. -/
theorem Scans.of_rest (h : Scans rest i cs ts) : Scans [] i cs ts := by
  have hrest : Scans ([] ++ rest) i cs ts := h
  exact hrest.of_append

/-- A whole text is read as well before characters that no number goes on with. -/
theorem Scans.before (h : Scans [] i cs ts) (hrest : Breaks rest) : Scans rest i cs ts := by
  induction h with
  | nil i => exact .nil i
  | blank hc _ ih => exact .blank hc ih
  | token hk _ ih =>
    rw [List.append_nil] at hk
    exact .token (hk.append hrest) ih

/-- Two parts of a text, the first read before the second, have the tokens of both. -/
theorem Scans.append (h : Scans rest i cs ts) (h' : Scans [] (i + cs.length) rest us) :
    Scans [] i (cs ++ rest) (ts ++ us) := by
  induction h with
  | nil i => exact h'
  | @blank i c cs ts hc _ ih =>
    refine .blank hc (ih ?_)
    rwa [List.length_cons, Nat.add_comm cs.length, ← Nat.add_assoc] at h'
  | @token i k lex cs ts hk _ ih =>
    rw [List.append_assoc, List.cons_append]
    refine .token ?_ (ih ?_)
    · rwa [List.append_nil]
    · rwa [List.length_append, ← Nat.add_assoc] at h'

/-- A text has tokens exactly when it is made of blanks, symbols and numbers. -/
theorem lexical_iff_scans : Lexical cs ↔ ∃ ts, Scans [] i cs ts := by
  constructor
  · intro h
    induction h generalizing i with
    | nil => exact ⟨[], .nil i⟩
    | blank hc _ ih =>
      obtain ⟨ts, hts⟩ := ih (i := i + 1)
      exact ⟨ts, .blank hc hts⟩
    | @symbol s cs _ ih =>
      obtain ⟨ts, hts⟩ := ih (i := i + 1)
      have hs : Lexeme (.symbol s) [s.char] (cs ++ []) := .symbol s _
      exact ⟨_, .token hs hts⟩
    | @number ds cs hd hend _ ih =>
      obtain ⟨ts, hts⟩ := ih (i := i + ds.length)
      obtain ⟨v, hv⟩ := hd.exists_read
      exact ⟨_, .token (.number hd hv (by rwa [List.append_nil])) hts⟩
  · rintro ⟨ts, h⟩
    induction h with
    | nil i => exact .nil
    | blank hc _ ih => exact .blank hc ih
    | token hk _ ih =>
      rw [List.append_nil] at hk
      cases hk with
      | symbol s => exact .symbol s ih
      | number hn _ hend => exact .number hn hend ih

/-- The tokens lie between the two ends of the characters read. -/
theorem Scans.bounds (h : Scans rest i cs ts) (ht : t ∈ ts) :
    i ≤ t.span.start ∧ t.span.start < t.span.stop ∧ t.span.stop ≤ i + cs.length := by
  induction h with
  | nil i => nomatch ht
  | blank _ _ ih =>
    have := ih ht
    rw [List.length_cons]
    omega
  | token hk _ ih =>
    have hpos := hk.length_pos
    rw [List.length_append]
    rcases List.mem_cons.1 ht with rfl | ht
    · dsimp only
      omega
    · have := ih ht
      omega

/-- Each token ends before the next one starts. -/
theorem Scans.pairwise (h : Scans rest i cs ts) : ts.Pairwise fun t u => t.span.stop ≤ u.span.start := by
  induction h with
  | nil i => exact .nil
  | blank _ _ ih => exact ih
  | token _ h ih => exact .cons (fun u hu => (h.bounds hu).1) ih

/-- The tokens of a text are in order. -/
theorem Scans.stop_le_start {a b : Nat} {t u : Token} (h : Scans rest i cs ts) (ht : ts[a]? = some t)
    (hu : ts[b]? = some u) (hab : a < b) : t.span.stop ≤ u.span.start := by
  obtain ⟨ha, rfl⟩ := List.getElem?_eq_some_iff.1 ht
  obtain ⟨hb, rfl⟩ := List.getElem?_eq_some_iff.1 hu
  exact List.pairwise_iff_getElem.1 h.pairwise a b ha hb hab

/-- A later token neither starts nor stops earlier. -/
theorem Scans.span_le {a b : Nat} {t u : Token} (h : Scans rest i cs ts) (ht : ts[a]? = some t) (hu : ts[b]? = some u)
    (hab : a ≤ b) : t.span.start ≤ u.span.start ∧ t.span.stop ≤ u.span.stop := by
  rcases Nat.eq_or_lt_of_le hab with rfl | hab
  · cases ht.symm.trans hu
    exact ⟨Nat.le_refl _, Nat.le_refl _⟩
  · have hle := h.stop_le_start ht hu hab
    have htt := h.bounds (List.mem_of_getElem? ht)
    have huu := h.bounds (List.mem_of_getElem? hu)
    omega

/-- The tokens of a text further along are the same, with their spans moved. -/
theorem Scans.exists_shift {d : Nat} (h : Scans rest i cs ts) (hd : d ≤ i) :
    ∃ us, Scans rest (i - d) cs us ∧ us.map (Token.shift d) = ts := by
  induction h with
  | nil i => exact ⟨[], .nil _, rfl⟩
  | blank hc _ ih =>
    obtain ⟨us, hus, hmap⟩ := ih (Nat.le_succ_of_le hd)
    rw [Nat.sub_add_comm hd] at hus
    exact ⟨us, .blank hc hus, hmap⟩
  | @token i k lex cs ts hk _ ih =>
    obtain ⟨us, hus, hmap⟩ := ih (Nat.le_trans hd (Nat.le_add_right _ _))
    rw [Nat.sub_add_comm hd] at hus
    refine ⟨_, .token hk hus, ?_⟩
    rw [List.map_cons, hmap, Token.shift, Span.shift]
    dsimp only
    rw [Nat.add_right_comm, Nat.sub_add_cancel hd]

/-- A text has tokens of the same kinds wherever it stands. -/
theorem Scans.exists_at (h : Scans rest i cs ts) (j : Nat) :
    ∃ us, Scans rest j cs us ∧ us.map Token.kind = ts.map Token.kind := by
  induction h generalizing j with
  | nil i => exact ⟨[], .nil j, rfl⟩
  | blank hc _ ih =>
    obtain ⟨us, hus, hmap⟩ := ih (j + 1)
    exact ⟨us, .blank hc hus, hmap⟩
  | @token i k lex cs ts hk _ ih =>
    obtain ⟨us, hus, hmap⟩ := ih (j + lex.length)
    refine ⟨_, .token hk hus, ?_⟩
    rw [List.map_cons, List.map_cons, hmap]

/-- A text with a token is some characters before it, the word of this token and some characters after it, and it has the
other tokens before and after it in these. -/
theorem Scans.exists_split (h : Scans rest i cs (us ++ t :: ws)) :
    ∃ before lex after, cs = before ++ (lex ++ after) ∧
      t.span = ⟨i + before.length, i + before.length + lex.length⟩ ∧ Lexeme t.kind lex (after ++ rest) ∧
      Scans (lex ++ (after ++ rest)) i before us ∧ Scans rest (i + before.length + lex.length) after ws := by
  generalize hts : us ++ t :: ws = ts at h
  induction h generalizing us with
  | nil i => simp at hts
  | @blank i c cs ts hc _ ih =>
    obtain ⟨before, lex, after, rfl, hspan, hk, hus, hws⟩ := ih hts
    have hlength : i + 1 + before.length = i + (c :: before).length := by
      rw [List.length_cons]
      omega
    rw [hlength] at hspan hws
    exact ⟨c :: before, lex, after, rfl, hspan, hk, .blank hc hus, hws⟩
  | @token i k word cs ts hk h ih =>
    cases us with
    | nil =>
      cases hts
      exact ⟨[], word, cs, rfl, rfl, hk, .nil i, h⟩
    | cons u us =>
      cases hts
      obtain ⟨before, lex, after, rfl, hspan, hk', hus, hws⟩ := ih rfl
      have hlength : i + word.length + before.length = i + (word ++ before).length := by
        rw [List.length_append, Nat.add_assoc]
      rw [hlength] at hspan hws
      refine ⟨word ++ before, lex, after, ?_, hspan, hk', .token ?_ hus, hws⟩
      · rw [List.append_assoc]
      · simpa only [List.append_assoc] using hk

/-- A text has the tokens from one of them on from where that one starts. -/
theorem Scans.drop (h : Scans rest i cs (us ++ t :: ws)) :
    Scans rest t.span.start (cs.drop (t.span.start - i)) (t :: ws) := by
  obtain ⟨before, lex, after, rfl, hspan, hk, -, hws⟩ := h.exists_split
  obtain ⟨k, sp⟩ := t
  dsimp only at hspan hk ⊢
  subst hspan
  rw [Nat.add_sub_cancel_left, List.drop_left]
  exact .token hk hws

/-- A text up to where one of its tokens stops has the tokens up to that one. -/
theorem Scans.take (h : Scans rest i cs (us ++ t :: ws)) :
    Scans [] i (cs.take (t.span.stop - i)) (us ++ [t]) := by
  obtain ⟨before, lex, after, rfl, hspan, hk, hus, -⟩ := h.exists_split
  obtain ⟨k, sp⟩ := t
  dsimp only at hspan hk ⊢
  subst hspan
  have hlength : i + before.length + lex.length - i = (before ++ lex).length := by
    rw [List.length_append]
    omega
  rw [hlength, ← List.append_assoc, List.take_left]
  -- what followed the word is cut, which leaves it a word
  have hk' : Lexeme k lex ([] ++ (after ++ rest)) := hk
  have hword : Scans [] (i + before.length) (lex ++ []) [⟨k, ⟨i + before.length, i + before.length + lex.length⟩⟩] :=
    .token hk'.of_append (.nil _)
  rw [List.append_nil] at hword
  exact hus.of_append.append hword

end Scans

/-! ## Places in a text -/

/-- The characters of a text that a span covers. -/
def covered (cs : List Char) (sp : Span) : List Char :=
  (cs.drop sp.start).take sp.length

/-- The tokens cover the words of a text: each is a word at its place, they stand one after the other, and between them
are only blanks. -/
structure Tokenized (cs : List Char) (ts : List Token) : Prop where
  within : ∀ t ∈ ts, t.span.start < t.span.stop ∧ t.span.stop ≤ cs.length
  ordered : ts.Pairwise fun t u => t.span.stop ≤ u.span.start
  lexeme : ∀ t ∈ ts, Lexeme t.kind (covered cs t.span) (cs.drop t.span.stop)
  blank : ∀ i c, cs[i]? = some c → (∀ t ∈ ts, ¬(t.span.start ≤ i ∧ i < t.span.stop)) → c ∈ Text.blanks

/-- Each token is the word at its place. -/
theorem Scans.lexeme_covered {cs : List Char} {ts : List Token} (h : Scans [] 0 cs ts) {t : Token} (ht : t ∈ ts) :
    Lexeme t.kind (Calculator.covered cs t.span) (cs.drop t.span.stop) := by
  obtain ⟨us, ws, rfl⟩ := List.append_of_mem ht
  obtain ⟨before, lex, after, rfl, hspan, hk, -, -⟩ := h.exists_split
  rw [Nat.zero_add] at hspan
  rw [List.append_nil] at hk
  have hcovered : Calculator.covered (before ++ (lex ++ after)) t.span = lex := by
    rw [hspan, Calculator.covered, List.drop_left, Span.length, Nat.add_sub_cancel_left, List.take_left]
  have hrest : (before ++ (lex ++ after)).drop t.span.stop = after := by
    rw [hspan, ← List.append_assoc, ← List.length_append, List.drop_left]
  rwa [hcovered, hrest]

/-- What no token covers is blank. -/
theorem Scans.blank_of_not_covered {i : Nat} {cs : List Char} {ts : List Token} (h : Scans [] i cs ts) {j : Nat}
    {c : Char} (hj : cs[j]? = some c) (hts : ∀ t ∈ ts, ¬(t.span.start ≤ i + j ∧ i + j < t.span.stop)) :
    c ∈ Text.blanks := by
  induction h generalizing j with
  | nil i => nomatch hj
  | @blank i b cs ts hb _ ih =>
    cases j with
    | zero =>
      cases hj
      exact hb
    | succ j =>
      refine ih (j := j) hj fun t ht => ?_
      rw [Nat.add_assoc, Nat.add_comm 1]
      exact hts t ht
  | @token i k lex cs ts hk _ ih =>
    have hle : lex.length ≤ j := by
      have := hts _ List.mem_cons_self
      dsimp only at this
      omega
    rw [List.getElem?_append_right hle] at hj
    refine ih (j := j - lex.length) hj fun t ht => ?_
    rw [Nat.add_assoc, Nat.add_sub_cancel' hle]
    exact hts t (List.mem_cons_of_mem _ ht)

theorem Scans.tokenized {cs : List Char} {ts : List Token} (h : Scans [] 0 cs ts) : Tokenized cs ts where
  within := by
    intro t ht
    have := h.bounds ht
    omega
  ordered := h.pairwise
  lexeme := fun _ ht => h.lexeme_covered ht
  blank := by
    intro j c hj hts
    refine h.blank_of_not_covered hj fun t ht => ?_
    rw [Nat.zero_add]
    exact hts t ht

/-- The part of a text that some of its tokens cover, from the first of them to the last, has these tokens, in their
places in the part. -/
theorem Scans.covered {cs : List Char} {before window after : List Token} {first last : Token}
    (h : Scans [] 0 cs (before ++ (window ++ after))) (hfirst : window.head? = some first)
    (hlast : window.getLast? = some last) :
    ∃ us, Scans [] 0 (Calculator.covered cs ⟨first.span.start, last.span.stop⟩) us ∧
      us.map (Token.shift first.span.start) = window := by
  obtain ⟨tail, hwindow⟩ := List.head?_eq_some_iff.1 hfirst
  obtain ⟨middle, hwindow'⟩ := List.getLast?_eq_some_iff.1 hlast
  rw [hwindow] at h
  have hrest : first :: (tail ++ after) = middle ++ last :: after := by
    rw [← List.cons_append, ← hwindow, hwindow', List.append_assoc, List.singleton_append]
  have hdrop : Scans [] first.span.start (cs.drop (first.span.start - 0)) (first :: (tail ++ after)) := h.drop
  rw [Nat.sub_zero, hrest] at hdrop
  obtain ⟨us, hus, hmap⟩ := hdrop.take.exists_shift (Nat.le_refl _)
  rw [Nat.sub_self] at hus
  exact ⟨us, hus, hmap.trans hwindow'.symm⟩

end TokenParsing.Calculator
