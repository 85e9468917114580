import TokenParsing.Proofs.Calculator.Lexemes
import TokenParsing.Proofs.Parser.Words

/-!
# Reading a text as tokens

The parser of tokens reads a text as far as it is made of blanks, symbols and numbers, each number to its end. It
succeeds on exactly the texts that are such all through, and then answers the words with their places; on any other text
it fails at the first character with which no blank and no word begins. The loop over the words is taken once
(`exists_collect_lexeme`): wherever it starts, it scans some characters and stops where it is stuck. That these are the
only characters and tokens it could have scanned is a fact about texts (`Scans.unique`).
-/

namespace TokenParsing.Calculator

open TokenParsing.Parser TokenParsing.TokenStream

variable {s : TokenStream Char}

/-! ## Numbers -/

/-- The parser of a fraction reads a point and all the digits after it. -/
theorem parse_fraction_eq_ok_iff {r : Success Char String} :
    (token '.' *> charRun Char.isDigit).parse s = .ok r ↔
      ∃ fs, s.Consumes ('.' :: fs) r.remaining ∧ Digits fs ∧ StopsAt Char.isDigit r.remaining.rest ∧
        r.value = String.ofList fs := by
  rw [seqRight_eq, parse_keepRight_eq_ok_iff]
  refine ⟨fun hleft => ?_, fun hright => ?_⟩
  · obtain ⟨r₁, hpoint, hrun⟩ := hleft
    obtain ⟨hc, -⟩ := parse_token_eq_ok_iff.1 hpoint
    obtain ⟨fs, hfs, hall, hstop, hne, hv⟩ := parse_charRun_eq_ok_iff.1 hrun
    exact ⟨fs, hc.trans hfs, ⟨hne, hall⟩, hstop, hv⟩
  · obtain ⟨fs, hc, hdigits, hstop, hv⟩ := hright
    obtain ⟨s₁, hpoint, hfs⟩ := consumes_append_iff.1 (show s.Consumes (['.'] ++ fs) r.remaining from hc)
    exact ⟨⟨'.', s₁⟩, parse_token_eq_ok_iff.2 ⟨hpoint, rfl⟩,
      parse_charRun_eq_ok_iff.2 ⟨fs, hfs, hdigits.isDigit, hstop, hdigits.ne_nil, hv⟩⟩

theorem parse_fraction_eq_error_iff :
    (∃ e, (token '.' *> charRun Char.isDigit).parse s = .error e) ↔ ¬StartsFraction s.rest := by
  rw [exists_parse_eq_error_iff]
  refine ⟨fun hfails hstarts => ?_, fun hstarts r hok => ?_⟩
  · obtain ⟨d, cs, hrest, hd⟩ := hstarts
    obtain ⟨fs, rest, hcs, hdigits, hstop⟩ := exists_digits hd cs
    have hc : s.rest = ('.' :: fs) ++ rest := by rw [hrest, hcs, List.cons_append]
    rw [← rest_advance_of_rest hc] at hstop
    exact hfails ⟨String.ofList fs, s.advance ('.' :: fs).length⟩
      (parse_fraction_eq_ok_iff.2 ⟨fs, consumes_of_rest hc, hdigits, hstop, rfl⟩)
  · obtain ⟨fs, hc, hdigits, -⟩ := parse_fraction_eq_ok_iff.1 hok
    obtain ⟨d, fs', rfl⟩ := List.exists_cons_of_ne_nil hdigits.ne_nil
    exact hstarts ⟨d, fs' ++ r.remaining.rest, hc.2, hdigits.isDigit d List.mem_cons_self⟩

/-- The characters of a number as its parser puts them together again. -/
def numberText : String × Option String → String
  | (whole, none) => whole
  | (whole, some fraction) => whole ++ "." ++ fraction

/-- A value that may be missing is answered without reading anything. -/
theorem parse_value_or_reject_eq_ok_iff {o : Option Float} {f : Failure} {r : Success Char Float} :
    Parser.parse (match o with | some x => pure x | none => reject f) s = .ok r ↔
      o = some r.value ∧ r.remaining = s := by
  obtain ⟨v, s'⟩ := r
  cases o with
  | none => simp [parse_reject]
  | some x => simp [eq_comm]

/-- The parser of a number reads its parts and then their value. -/
theorem parse_number_eq_ok_iff_parts {r : Success Char Float} :
    number.parse s = .ok r ↔
      ∃ parts, ((charRun Char.isDigit).both (token '.' *> charRun Char.isDigit).optional).parse s =
          .ok ⟨parts, r.remaining⟩ ∧ Decimal.read? (numberText parts) = some r.value := by
  rw [number, parse_withLabel_eq_ok_iff, bind_eq, parse_bind_eq_ok_iff]
  simp only [parse_spanned_eq_ok_iff]
  refine ⟨fun hleft => ?_, fun hright => ?_⟩
  · obtain ⟨_, ⟨⟨⟨whole, fraction⟩, s₁⟩, hparts, rfl⟩, h⟩ := hleft
    obtain ⟨hread, hr⟩ := parse_value_or_reject_eq_ok_iff.1 h
    rw [hr]
    exact ⟨(whole, fraction), hparts, by cases fraction <;> exact hread⟩
  · obtain ⟨⟨whole, fraction⟩, hparts, hread⟩ := hright
    exact ⟨_, ⟨_, hparts, rfl⟩, parse_value_or_reject_eq_ok_iff.2 ⟨by cases fraction <;> exact hread, rfl⟩⟩

theorem numberText_pointed (ds fs : List Char) :
    numberText (String.ofList ds, some (String.ofList fs)) = String.ofList (ds ++ '.' :: fs) := by
  rw [numberText, show "." = String.ofList ['.'] from rfl, ← String.ofList_append, ← String.ofList_append,
    List.append_assoc, List.singleton_append]

/-- The parser of a number reads the characters of one up to where it ends. -/
theorem parse_number_eq_ok_iff {r : Success Char Float} :
    number.parse s = .ok r ↔
      ∃ cs, s.Consumes cs r.remaining ∧ Numeral cs ∧ Decimal.read? (String.ofList cs) = some r.value ∧
        NumeralEnds cs r.remaining.rest := by
  obtain ⟨v, s'⟩ := r
  rw [parse_number_eq_ok_iff_parts]
  refine ⟨fun hleft => ?_, fun hright => ?_⟩
  · obtain ⟨parts, hparts, hread⟩ := hleft
    obtain ⟨r₁, r₂, hwhole, hfraction, heq⟩ := parse_both_eq_ok_iff.1 hparts
    obtain ⟨ds, hds, hall, hstop, hne, hv⟩ := parse_charRun_eq_ok_iff.1 hwhole
    rcases parse_optional_eq_ok_iff.1 hfraction with ⟨r₃, hpoint, rfl⟩ | ⟨hnone, rfl⟩
    · obtain ⟨fs, hfs, hdigits, hstop, hv'⟩ := parse_fraction_eq_ok_iff.1 hpoint
      cases heq
      rw [hv, show (r₃.map some).value = some (String.ofList fs) from congrArg some hv', numberText_pointed] at hread
      refine ⟨ds ++ '.' :: fs, hds.trans hfs, .pointed ⟨hne, hall⟩ hdigits, hread, hstop, fun hpoint => ?_⟩
      exact absurd (List.mem_append_right ds List.mem_cons_self) hpoint
    · cases heq
      rw [hv] at hread
      exact ⟨ds, hds, .whole ⟨hne, hall⟩, hread, hstop, fun _ => parse_fraction_eq_error_iff.1 hnone⟩
  · obtain ⟨cs, hc, hnumeral, hread, hend⟩ := hright
    cases hnumeral with
    | whole h =>
      refine ⟨(String.ofList cs, none), parse_both_eq_ok_iff.2 ⟨⟨_, s'⟩, ⟨none, s'⟩, ?_, ?_, rfl⟩, hread⟩
      · exact parse_charRun_eq_ok_iff.2 ⟨cs, hc, h.isDigit, hend.digit, h.ne_nil, rfl⟩
      · exact parse_optional_eq_ok_iff.2
          (Or.inr ⟨parse_fraction_eq_error_iff.2 (hend.fraction h.point_not_mem), rfl⟩)
    | @pointed ds fs h hf =>
      obtain ⟨s₁, hds, hfs⟩ := consumes_append_iff.1 hc
      have hstop : StopsAt Char.isDigit s₁.rest := by
        rw [hfs.2]
        exact stopsAt_cons isDigit_point _
      rw [← numberText_pointed] at hread
      refine ⟨(String.ofList ds, some (String.ofList fs)),
        parse_both_eq_ok_iff.2 ⟨⟨_, s₁⟩, ⟨some _, s'⟩, ?_, ?_, rfl⟩, hread⟩
      · exact parse_charRun_eq_ok_iff.2 ⟨ds, hds, h.isDigit, hstop, h.ne_nil, rfl⟩
      · exact parse_optional_eq_ok_iff.2
          (Or.inl ⟨⟨_, s'⟩, parse_fraction_eq_ok_iff.2 ⟨fs, hfs, hf, hend.digit, rfl⟩, rfl⟩)

/-- The parser of a number fails exactly where no digit is next. -/
theorem parse_number_eq_error_iff : (∃ e, number.parse s = .error e) ↔ StopsAt Char.isDigit s.rest := by
  rw [exists_parse_eq_error_iff]
  refine ⟨fun hfails d hd => ?_, fun hstop r hok => ?_⟩
  · obtain ⟨cs, hrest⟩ := List.head?_eq_some_iff.1 hd
    refine Bool.eq_false_iff.2 fun hdigit => ?_
    obtain ⟨lex, rest, hcs, hn, hend⟩ := exists_numeral hdigit cs
    obtain ⟨v, hv⟩ := hn.exists_read
    have hc : s.rest = lex ++ rest := hrest.trans hcs
    rw [← rest_advance_of_rest hc] at hend
    exact hfails ⟨v, s.advance lex.length⟩ (parse_number_eq_ok_iff.2 ⟨lex, consumes_of_rest hc, hn, hv, hend⟩)
  · obtain ⟨cs, hc, hn, -⟩ := parse_number_eq_ok_iff.1 hok
    obtain ⟨d, cs', rfl, hd⟩ := hn.exists_cons
    have hhead : s.rest.head? = some d := by
      rw [hc.2]
      rfl
    nomatch (hstop d hhead).symm.trans hd

/-! ## Words -/

theorem parse_symbolKind_eq_ok_iff {r : Success Char TokenKind} :
    symbolKind.parse s = .ok r ↔ ∃ sym, s.Consumes [Symbol.char sym] r.remaining ∧ r.value = .symbol sym := by
  obtain ⟨k, s'⟩ := r
  rw [symbolKind, parse_withLabel_eq_ok_iff, parse_map_eq_ok_iff]
  refine ⟨fun hleft => ?_, fun hright => ?_⟩
  · obtain ⟨r₁, h, heq⟩ := hleft
    obtain ⟨hc, hsome⟩ := parse_accept_eq_ok_iff_consumes.1 h
    obtain ⟨sym, hsym⟩ := Option.isSome_iff_exists.1 hsome
    cases heq
    rw [(Symbol.ofChar?_eq_some_iff _ _).1 hsym] at hc
    exact ⟨sym, hc, congrArg (fun o => TokenKind.symbol (o.getD .rightParen)) hsym⟩
  · obtain ⟨sym, hc, hv⟩ := hright
    dsimp only at hc hv
    have hsome : (Symbol.ofChar? sym.char).isSome = true := by
      rw [sym.ofChar?_char, Option.isSome_some]
    refine ⟨⟨sym.char, s'⟩, parse_accept_eq_ok_iff_consumes.2 ⟨hc, hsome⟩, ?_⟩
    rw [Success.map, sym.ofChar?_char, Option.getD_some, hv]

theorem parse_symbolKind_eq_error_iff :
    (∃ e, symbolKind.parse s = .error e) ↔ ∀ c, s.rest.head? = some c → Symbol.ofChar? c = none := by
  rw [exists_parse_eq_error_iff]
  refine ⟨fun hfails c hc => ?_, fun hnone r hok => ?_⟩
  · rw [Option.eq_none_iff_forall_ne_some]
    rintro sym hsym
    obtain rfl := (Symbol.ofChar?_eq_some_iff c sym).1 hsym
    rw [head?_rest] at hc
    exact hfails ⟨.symbol sym, s.advance 1⟩ (parse_symbolKind_eq_ok_iff.2 ⟨sym, consumes_of_head? hc, rfl⟩)
  · obtain ⟨sym, hc, -⟩ := parse_symbolKind_eq_ok_iff.1 hok
    have hhead : s.rest.head? = some sym.char := by
      rw [hc.2]
      rfl
    nomatch (hnone _ hhead).symm.trans sym.ofChar?_char

/-- What a token stands for is read off a number or a symbol. -/
theorem parse_tokenKind_eq_ok_iff {r : Success Char TokenKind} :
    (number.map TokenKind.number <|> symbolKind).parse s = .ok r ↔
      ∃ cs, s.Consumes cs r.remaining ∧ Lexeme r.value cs r.remaining.rest := by
  obtain ⟨k, s'⟩ := r
  rw [orElse_eq, parse_orElse_eq_ok_iff]
  refine ⟨fun hleft => ?_, fun hright => ?_⟩
  · rcases hleft with h | ⟨-, h⟩
    · obtain ⟨r₁, hnumber, heq⟩ := parse_map_eq_ok_iff.1 h
      obtain ⟨cs, hc, hn, hv, hend⟩ := parse_number_eq_ok_iff.1 hnumber
      cases heq
      exact ⟨cs, hc, .number hn hv hend⟩
    · obtain ⟨sym, hc, hv⟩ := parse_symbolKind_eq_ok_iff.1 h
      dsimp only at hv
      subst hv
      exact ⟨[sym.char], hc, .symbol sym _⟩
  · obtain ⟨cs, hc, hk⟩ := hright
    dsimp only at hc hk
    cases hk with
    | symbol sym =>
      have hstop : StopsAt Char.isDigit s.rest := by
        rw [hc.2]
        exact stopsAt_cons sym.isDigit_char _
      obtain ⟨e, he⟩ := parse_number_eq_error_iff.2 hstop
      exact Or.inr ⟨⟨e, parse_map_eq_error_iff.2 he⟩, parse_symbolKind_eq_ok_iff.2 ⟨sym, hc, rfl⟩⟩
    | @number _ _ v hn hv hend =>
      have hnumber : number.parse s = .ok ⟨v, s'⟩ := parse_number_eq_ok_iff.2 ⟨cs, hc, hn, hv, hend⟩
      exact Or.inl (parse_map_eq_ok_iff.2 ⟨_, hnumber, rfl⟩)

/-- The parser of a token reads one word. -/
theorem parse_lexeme_eq_ok_iff {r : Success Char Token} :
    lexeme.parse s = .ok r ↔
      ∃ k cs, s.Consumes cs r.remaining ∧ Lexeme k cs r.remaining.rest ∧
        r.value = ⟨k, ⟨s.position, r.remaining.position⟩⟩ := by
  obtain ⟨t, s'⟩ := r
  simp only [lexeme, parse_map_eq_ok_iff, parse_spanned_eq_ok_iff]
  refine ⟨fun hleft => ?_, fun hright => ?_⟩
  · obtain ⟨_, ⟨r₁, h, rfl⟩, heq⟩ := hleft
    obtain ⟨cs, hc, hk⟩ := parse_tokenKind_eq_ok_iff.1 h
    cases heq
    exact ⟨r₁.value, cs, hc, hk, rfl⟩
  · obtain ⟨k, cs, hc, hk, rfl⟩ := hright
    have h : (number.map TokenKind.number <|> symbolKind).parse s = .ok ⟨k, s'⟩ :=
      parse_tokenKind_eq_ok_iff.2 ⟨cs, hc, hk⟩
    exact ⟨_, ⟨_, h, rfl⟩, rfl⟩

/-- The parser of a token fails exactly where neither a digit nor a symbol is next. -/
theorem parse_lexeme_eq_error_iff :
    (∃ e, lexeme.parse s = .error e) ↔
      StopsAt Char.isDigit s.rest ∧ ∀ c, s.rest.head? = some c → Symbol.ofChar? c = none := by
  rw [← parse_number_eq_error_iff, ← parse_symbolKind_eq_error_iff]
  simp only [lexeme, parse_map_eq_error_iff, parse_spanned_eq_error_iff, orElse_eq, parse_orElse_eq_error_iff]
  refine ⟨fun hleft => ?_, fun hright => ?_⟩
  · obtain ⟨e, e₁, e₂, h₁, h₂, -⟩ := hleft
    exact ⟨⟨e₁, h₁⟩, ⟨e₂, h₂⟩⟩
  · obtain ⟨⟨e₁, h₁⟩, ⟨e₂, h₂⟩⟩ := hright
    exact ⟨_, e₁, e₂, h₁, h₂, rfl⟩

/-! ## Texts -/

/-- A word and the blanks after it cannot be read, where no blank is next, only if no word begins. -/
theorem stuck_of_parse_eq_error {e : Failure} (h : (lexeme <* whitespace).parse s = .error e)
    (hs : StopsAt (· ∈ Text.blanks) s.rest) : Stuck s.rest := by
  rcases parse_keepLeft_eq_error_iff.1 h with hlexeme | ⟨r, -, hwhitespace⟩
  · obtain ⟨hdigit, hsymbol⟩ := parse_lexeme_eq_error_iff.1 ⟨e, hlexeme⟩
    exact fun c hc => ⟨of_decide_eq_false (hs c hc), hdigit c hc, hsymbol c hc⟩
  · obtain ⟨r', hr'⟩ : ∃ r', whitespace.parse r.remaining = .ok r' := exists_parse_oneOf_many _ _
    nomatch hwhitespace.symm.trans hr'

/-- Wherever the loop over the words starts, if not at a blank, it scans some characters and stops where it is stuck.
Every word moves it on, so its budget of one round for each character and one more is never used up. -/
theorem exists_collect_lexeme (budget : Nat) (hb : s.length < budget) (hs : StopsAt (· ∈ Text.blanks) s.rest) :
    ∃ ts s' cs, (lexeme <* whitespace).collect true budget 0 s = (ts, s') ∧ s.Consumes cs s' ∧
      Scans s'.rest s.position cs ts ∧ Stuck s'.rest := by
  induction budget generalizing s with
  | zero => exact absurd hb (Nat.not_lt_zero _)
  | succ budget ih =>
    cases h : (lexeme <* whitespace).parse s with
    | error e => exact ⟨[], s, [], collect_of_error h true budget 0, .refl s, .nil _, stuck_of_parse_eq_error h hs⟩
    | ok r =>
      obtain ⟨r₁, r₂, hl, hw, rfl⟩ := parse_keepLeft_eq_ok_iff.1 h
      obtain ⟨k, lex, hlex, hk, hv⟩ := parse_lexeme_eq_ok_iff.1 hl
      obtain ⟨bs, hbs, hblank, hstop, -⟩ := parse_whitespace_eq_ok_iff.1 hw
      -- a word has a character, so the match is not idle and what is left fits the smaller budget
      have hpos := hk.length_pos
      have hposition := (hlex.trans hbs).position_eq
      rw [List.length_append] at hposition
      have hlater : s.position < r₂.remaining.position := by omega
      have hlength := (hlex.trans hbs).length_lt hlater
      obtain ⟨ts, s', cs, hcollect, hcs, hscans, hstuck⟩ := ih (s := r₂.remaining) (by omega) hstop
      refine ⟨r₁.value :: ts, s', lex ++ (bs ++ cs), ?_, hlex.trans (hbs.trans hcs), ?_, hstuck⟩
      · rw [collect_of_progress h hlater, hcollect]
      · rw [hv, hlex.position_eq]
        refine .token ?_ (.blanks hblank ?_)
        · rwa [List.append_assoc, ← hcs.2, ← hbs.2]
        · rwa [hposition, ← Nat.add_assoc] at hscans

/-- The parser of tokens scans characters until it is stuck, where the input must end. -/
theorem exists_parse_tokens (s : TokenStream Char) :
    ∃ ts s' cs, s.Consumes cs s' ∧ Scans s'.rest s.position cs ts ∧ Stuck s'.rest ∧
      tokens.parse s = (endOfInput.parse s').map fun _ => ⟨ts, s'⟩ := by
  obtain ⟨r, hw⟩ : ∃ r, whitespace.parse s = .ok r := exists_parse_oneOf_many _ s
  obtain ⟨bs, hbs, hblank, hstop, -⟩ := parse_whitespace_eq_ok_iff.1 hw
  obtain ⟨ts, s', cs, hcollect, hcs, hscans, hstuck⟩ :=
    exists_collect_lexeme (unboundedBudget 0 r.remaining) (Nat.lt_succ_self _) hstop
  have hmany : (lexeme <* whitespace).many.parse r.remaining = .ok ⟨ts, s'⟩ :=
    parse_repeated_eq_ok_iff.2 ⟨Nat.zero_le _, hcollect⟩
  have hwords : (whitespace *> (lexeme <* whitespace).many).parse s = .ok ⟨ts, s'⟩ :=
    parse_keepRight_eq_ok_iff.2 ⟨r, hw, hmany⟩
  refine ⟨ts, s', bs ++ cs, hbs.trans hcs, .blanks hblank ?_, hstuck, ?_⟩
  · rwa [← hbs.position_eq]
  · cases hend : endOfInput.parse s' with
    | error e => exact parse_keepLeft_eq_error_iff.2 (Or.inr ⟨_, hwords, hend⟩)
    | ok r' =>
      obtain ⟨-, hr'⟩ := parse_endOfInput_eq_ok_iff.1 hend
      refine parse_keepLeft_eq_ok_iff.2 ⟨_, r', hwords, hend, ?_⟩
      rw [hr']

/-- A word is told by the characters it starts, as there is only one that its parser can read. -/
theorem Lexeme.unique {k k' : TokenKind} {lex lex' rest rest' : List Char} (h : Lexeme k lex rest)
    (h' : Lexeme k' lex' rest') (heq : lex ++ rest = lex' ++ rest') : k = k' ∧ lex = lex' ∧ rest = rest' := by
  have hparse : ∀ {k : TokenKind} {lex rest cs : List Char}, Lexeme k lex rest → cs = lex ++ rest →
      lexeme.parse (.ofList cs) = .ok ⟨⟨k, ⟨0, lex.length⟩⟩, (ofList cs).advance lex.length⟩ := by
    intro k lex rest cs hk hcs
    have hrest : (ofList cs).rest = lex ++ rest := hcs
    refine parse_lexeme_eq_ok_iff.2 ⟨k, lex, consumes_of_rest hrest, ?_, ?_⟩
    · rwa [rest_advance_of_rest hrest]
    · rw [(consumes_of_rest hrest).position_eq, position_ofList, Nat.zero_add]
  have hsame := (hparse h rfl).symm.trans (hparse h' heq)
  simp only [Except.ok.injEq, Success.mk.injEq, Token.mk.injEq, Span.mk.injEq] at hsame
  obtain ⟨⟨rfl, -, hlength⟩, -⟩ := hsame
  exact ⟨rfl, List.append_inj heq hlength⟩

/-- A text that is blanks and words all through has no other tokens, however far it is scanned. -/
theorem Scans.unique {rest cs cs' : List Char} {i : Nat} {ts ts' : List Token} (h : Scans [] i cs ts)
    (h' : Scans rest i cs' ts') (hcs : cs = cs' ++ rest) (hstuck : Stuck rest) : rest = [] ∧ ts = ts' := by
  -- the next character allows one step only, so both take the same, and the second cannot stop before the first
  induction h generalizing cs' ts' with
  | nil i =>
    obtain ⟨hnil, rfl⟩ := List.append_eq_nil_iff.1 hcs.symm
    cases h' with
    | nil => exact ⟨rfl, rfl⟩
    | blank => nomatch hnil
    | token hk' =>
      obtain ⟨c, lex, rfl, -⟩ := hk'.exists_cons
      nomatch hnil
  | @blank i c cs ts hc h ih =>
    cases h' with
    | nil =>
      subst hcs
      exact absurd hc (hstuck c rfl).1
    | blank hc' h' =>
      obtain ⟨rfl, rfl⟩ := List.cons.inj hcs
      exact ih h' rfl
    | token hk' h' =>
      obtain ⟨c', lex', rfl, hc', -⟩ := hk'.exists_cons
      obtain ⟨rfl, -⟩ := List.cons.inj hcs
      exact absurd hc hc'
  | @token i k lex cs ts hk h ih =>
    cases h' with
    | nil =>
      subst hcs
      exact absurd hk hstuck.not_lexeme
    | blank hc' h' =>
      obtain ⟨c, lex', rfl, hc, -⟩ := hk.exists_cons
      obtain ⟨rfl, -⟩ := List.cons.inj hcs
      exact absurd hc' hc
    | @token _ k' lex' cs' ts' hk' h' =>
      rw [List.append_assoc] at hcs
      rw [List.append_nil] at hk
      obtain ⟨rfl, rfl, rfl⟩ := hk.unique hk' hcs
      obtain ⟨hrest, rfl⟩ := ih h' rfl
      exact ⟨hrest, rfl⟩

/-- The tokens of a text are what the parser of tokens answers, at the end of the text. -/
theorem parse_tokens_eq_ok_iff {cs : List Char} {r : Success Char (List Token)} :
    tokens.parse (.ofList cs) = .ok r ↔ Scans [] 0 cs r.value ∧ r.remaining = (ofList cs).advance cs.length := by
  obtain ⟨ts, s', cs', hc, hscans, hstuck, hparse⟩ := exists_parse_tokens (.ofList cs)
  have hcs : cs = cs' ++ s'.rest := hc.2
  have hend : tokens.parse (.ofList cs) = .ok r ↔ s'.rest = [] ∧ r = ⟨ts, s'⟩ := by
    rw [hparse, parse_endOfInput, ← head?_eq_none_iff]
    cases s'.head? <;> simp [Except.map, eq_comm]
  have hs' : s'.rest = [] → s' = (ofList cs).advance cs.length := by
    intro hnil
    rw [hnil, List.append_nil] at hcs
    rw [hc.1, hcs]
  rw [hend]
  refine ⟨fun hleft => ?_, fun hright => ?_⟩
  · obtain ⟨hnil, rfl⟩ := hleft
    rw [hnil] at hscans
    rw [hnil, List.append_nil] at hcs
    subst hcs
    exact ⟨hscans, hs' hnil⟩
  · obtain ⟨v, s₁⟩ := r
    obtain ⟨hscans', rfl⟩ := hright
    obtain ⟨hnil, rfl⟩ := hscans'.unique hscans hcs hstuck
    exact ⟨hnil, by rw [hs' hnil]⟩

/-- Every text is read to its end, as the tokens that cover its words, or up to the first character with which no blank
and no word begins, which is unexpected; and it is read to its end exactly when it is blanks and words all through. -/
theorem tokens_parse_text (text : String) :
    ((∃ r, tokens.parse (.ofText text) = .ok r ∧ r.remaining.position = text.length ∧ Tokenized text.toList r.value) ∨
      ∃ i c, text.toList[i]? = some c ∧ c ∉ Text.blanks ∧ c.isDigit = false ∧ Symbol.ofChar? c = none ∧
        tokens.parse (.ofText text) =
          .error (.single (.unexpected (describe c)) ⟨i, i + 1⟩ (some "end_of_input")) ∧
        ∃ r, tokens.parse (.ofText (String.ofList (text.toList.take i))) = .ok r) ∧
    ((∃ r, tokens.parse (.ofText text) = .ok r) ↔ Lexical text.toList) := by
  constructor
  · cases h : tokens.parse (.ofText text) with
    | ok r =>
      obtain ⟨hscans, hr⟩ := parse_tokens_eq_ok_iff.1 h
      refine Or.inl ⟨r, rfl, ?_, hscans.tokenized⟩
      rw [hr, position_advance_of_le (Nat.le_of_eq (length_ofList _).symm), position_ofList, Nat.zero_add,
        String.length_toList]
    | error e =>
      obtain ⟨ts, s', cs, hc, hscans, hstuck, hparse⟩ := exists_parse_tokens (.ofText text)
      have hcs : text.toList = cs ++ s'.rest := hc.2
      have hposition : s'.position = cs.length := hc.position_eq.trans (Nat.zero_add _)
      have hend : endOfInput.parse s' = .error e := by
        rw [h] at hparse
        cases hend : endOfInput.parse s' <;> rw [hend] at hparse <;> cases hparse
        rfl
      obtain ⟨c, hhead, rfl⟩ := parse_endOfInput_eq_error_iff.1 hend
      rw [← head?_rest] at hhead
      have htake : (String.ofList (text.toList.take cs.length)).toList = cs := by
        rw [String.toList_ofList, hcs, List.take_left]
      obtain ⟨hblank, hdigit, hsymbol⟩ := hstuck c hhead
      refine Or.inr ⟨cs.length, c, ?_, hblank, hdigit, hsymbol, ?_, ?_⟩
      · rw [hcs, List.getElem?_append_right (Nat.le_refl _), Nat.sub_self, ← List.head?_eq_getElem?, hhead]
      · rw [hposition, Span.single]
      · rw [ofText, htake]
        exact ⟨⟨ts, _⟩, parse_tokens_eq_ok_iff.2 ⟨hscans.of_rest, rfl⟩⟩
  · rw [lexical_iff_scans (i := 0)]
    refine ⟨fun hleft => ?_, fun hright => ?_⟩
    · obtain ⟨r, h⟩ := hleft
      exact ⟨r.value, (parse_tokens_eq_ok_iff.1 h).1⟩
    · obtain ⟨ts, hscans⟩ := hright
      exact ⟨⟨ts, _⟩, parse_tokens_eq_ok_iff.2 ⟨hscans, rfl⟩⟩

end TokenParsing.Calculator
