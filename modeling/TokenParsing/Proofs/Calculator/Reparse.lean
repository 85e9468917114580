import TokenParsing.Calculator.Reading
import TokenParsing.Proofs.Calculator.Recognition
import TokenParsing.Proofs.Calculator.Scanning

/-!
# Reading a part of a text by itself

Every part of an expression covers some characters of the text it was read from, and these are a text that is read as
this part. A part is a sum whatever its own level, so its tokens are those of a whole expression
(`WellShaped.of_mem_parts`, `Spells.of_mem_parts`); the characters from the first of them to the last have these tokens
again (`Scans.covered`); and places in a window of the tokens are places in the whole list, moved
(`Expr.map_locate_eq`, `textSpan_window`).
-/

namespace TokenParsing.Calculator

open TokenParsing.Parser TokenParsing.TokenStream

variable {σ τ : Type}

/-! ## Parts of an expression -/

/-- The expressions that an expression is made of. -/
def Expr.parts : Expr σ → List (Expr σ)
  | number _ _ => []
  | binary _ l r _ => [l, r]
  | negate e _ => [e]
  | group e _ => [e]

/-- What passes on to the parts of an expression is true of all its nodes. -/
theorem Expr.of_mem_preorder {P : Expr σ → Prop} (hparts : ∀ {e x : Expr σ}, P e → x ∈ e.parts → P x) {e x : Expr σ}
    {d depth : Nat} (he : P e) (hx : (d, x) ∈ e.preorder depth) : P x := by
  induction e generalizing depth with
  | number v p =>
    cases List.mem_singleton.1 hx
    exact he
  | binary op l r p ihl ihr =>
    rcases List.mem_cons.1 hx with hx | hx
    · cases hx
      exact he
    · rcases List.mem_append.1 hx with hx | hx
      · exact ihl (hparts he List.mem_cons_self) hx
      · exact ihr (hparts he (List.mem_cons_of_mem l List.mem_cons_self)) hx
  | negate e p ih =>
    rcases List.mem_cons.1 hx with hx | hx
    · cases hx
      exact he
    · exact ih (hparts he List.mem_cons_self) hx
  | group e p ih =>
    rcases List.mem_cons.1 hx with hx | hx
    · cases hx
      exact he
    · exact ih (hparts he List.mem_cons_self) hx

theorem Expr.preorder_map (f : σ → τ) (e : Expr σ) (depth : Nat) :
    (e.map f).preorder depth = (e.preorder depth).map fun n => (n.1, n.2.map f) := by
  induction e generalizing depth with
  | number v p => rfl
  | binary op l r p hl hr => rw [map, preorder, hl, hr, preorder, List.map_cons, List.map_append, map]
  | negate e p h => rw [map, preorder, h, preorder, List.map_cons, map]
  | group e p h => rw [map, preorder, h, preorder, List.map_cons, map]

/-- A tree of any level is a sum. -/
theorem WellShaped.sum {lvl : Level} {e : Expr σ} (h : WellShaped lvl e) : WellShaped .sum e := by
  cases lvl with
  | sum => exact h
  | term => exact .term h
  | signed => exact .term (.signed h)
  | power => exact .term (.signed (.power h))
  | atom => exact .term (.signed (.power (.atom h)))

/-- The parts of a well-shaped tree are sums by themselves. -/
theorem WellShaped.of_mem_parts {lvl : Level} {e x : Expr σ} (h : WellShaped lvl e) (hx : x ∈ e.parts) :
    WellShaped .sum x := by
  have hpair : ∀ {l r : Expr σ}, WellShaped .sum l → WellShaped .sum r → x ∈ [l, r] → WellShaped .sum x := by
    intro l r hl hr hx
    rcases List.mem_cons.1 hx with rfl | hx
    · exact hl
    · rwa [List.mem_singleton.1 hx]
  induction h with
  | number v p => nomatch hx
  | group p h _ => rwa [List.mem_singleton.1 hx]
  | negated p h _ =>
    rw [List.mem_singleton.1 hx]
    exact h.sum
  | raised p hb hx' _ _ => exact hpair hb.sum hx'.sum hx
  | product p ho hl hr _ _ => exact hpair hl.sum hr.sum hx
  | total p ho hl hr _ _ => exact hpair hl hr.sum hx
  | atom _ ih => exact ih hx
  | power _ ih => exact ih hx
  | signed _ ih => exact ih hx
  | term _ ih => exact ih hx

/-- The parts of a spelled tree are spelled by tokens of the same buffer. -/
theorem Spells.of_mem_parts {e x : Expr Span} {s s' : TokenStream Token} (h : Spells e s s') (hx : x ∈ e.parts) :
    ∃ s₁ s₂, Spells x s₁ s₂ ∧ s₁.buffer = s.buffer := by
  cases e with
  | number v p => nomatch hx
  | binary op l r p =>
    obtain ⟨s₁, hl, -, hr, -⟩ := h
    rcases List.mem_cons.1 hx with rfl | hx
    · exact ⟨s, s₁, hl, rfl⟩
    · cases List.mem_singleton.1 hx
      refine ⟨s₁.advance 1, s', hr, ?_⟩
      rw [hl.located.2.1, buffer_advance, buffer_advance]
  | negate e p =>
    cases List.mem_singleton.1 hx
    exact ⟨s.advance 1, s', h.2.1, rfl⟩
  | group e p =>
    cases List.mem_singleton.1 hx
    obtain ⟨-, s₁, he, -⟩ := h
    exact ⟨s.advance 1, s₁, he, rfl⟩

/-- The nodes of a sum are sums by themselves. -/
theorem WellShaped.of_mem_preorder {e x : Expr σ} {d depth : Nat} (h : WellShaped .sum e)
    (hx : (d, x) ∈ e.preorder depth) : WellShaped .sum x :=
  Expr.of_mem_preorder WellShaped.of_mem_parts h hx

/-- The nodes of a spelled tree are spelled by tokens of the same buffer. -/
theorem Spells.of_mem_preorder {e x : Expr Span} {s s' : TokenStream Token} {d depth : Nat} (h : Spells e s s')
    (hx : (d, x) ∈ e.preorder depth) : ∃ s₁ s₂, Spells x s₁ s₂ ∧ s₁.buffer = s.buffer := by
  refine Expr.of_mem_preorder (P := fun x => ∃ s₁ s₂, Spells x s₁ s₂ ∧ s₁.buffer = s.buffer) ?_ ⟨s, s', h, rfl⟩ hx
  rintro e x ⟨s₁, s₂, hspell, hbuffer⟩ hx
  obtain ⟨s₃, s₄, hspell', hbuffer'⟩ := hspell.of_mem_parts hx
  exact ⟨s₃, s₄, hspell', hbuffer'.trans hbuffer⟩

/-! ## Places -/

/-- Two functions of places agree on an expression located at two places if they do on the windows of its tokens. -/
theorem Expr.map_locate_eq {f g : Span → τ} {e : Expr σ} {i j : Nat}
    (h : ∀ a b, a < b → b ≤ e.width → f ⟨i + a, i + b⟩ = g ⟨j + a, j + b⟩) :
    (e.locate i).map f = (e.locate j).map g := by
  induction e generalizing i j with
  | number v p => exact congrArg (number v) (h 0 1 Nat.one_pos (Nat.le_refl _))
  | binary op l r p ihl ihr =>
    rw [width_binary] at h
    have hl : (l.locate i).map f = (l.locate j).map g := ihl fun a b hab hb => h a b hab (by omega)
    have hr : (r.locate (i + l.width + 1)).map f = (r.locate (j + l.width + 1)).map g := by
      refine ihr fun a b hab hb => ?_
      simpa only [Nat.add_assoc] using h (l.width + 1 + a) (l.width + 1 + b) (by omega) (by omega)
    have hp := h 0 (l.width + 1 + r.width) (by omega) (Nat.le_refl _)
    simp only [Nat.add_zero, ← Nat.add_assoc] at hp
    rw [locate, locate, map, map, hl, hr, hp]
  | negate e p ih =>
    rw [width_negate] at h
    have he : (e.locate (i + 1)).map f = (e.locate (j + 1)).map g := by
      refine ih fun a b hab hb => ?_
      simpa only [Nat.add_assoc] using h (1 + a) (1 + b) (by omega) (by omega)
    have hp := h 0 (1 + e.width) (by omega) (Nat.le_refl _)
    simp only [Nat.add_zero, ← Nat.add_assoc] at hp
    rw [locate, locate, map, map, he, hp]
  | group e p ih =>
    rw [width_group] at h
    have he : (e.locate (i + 1)).map f = (e.locate (j + 1)).map g := by
      refine ih fun a b hab hb => ?_
      simpa only [Nat.add_assoc] using h (1 + a) (1 + b) (by omega) (by omega)
    have hp := h 0 (1 + e.width + 1) (by omega) (Nat.le_refl _)
    simp only [Nat.add_zero, ← Nat.add_assoc] at hp
    rw [locate, locate, map, map, he, hp]

/-- The characters of some tokens are those from where the first of them starts to where the last of them stops. -/
theorem Scans.textSpan_eq {i n a b : Nat} {cs : List Char} {ts : List Token} {t u : Token} (h : Scans [] i cs ts)
    (ht : ts[a]? = some t) (hu : ts[b]? = some u) (hab : a ≤ b) :
    textSpan ts n ⟨a, b + 1⟩ = ⟨t.span.start, u.span.stop⟩ := by
  have hlt : t.span.start < u.span.stop :=
    Nat.lt_of_le_of_lt (h.span_le ht hu hab).1 (h.bounds (List.mem_of_getElem? hu)).2.1
  simp only [textSpan, Nat.add_one_ne_zero, if_false, Nat.add_sub_cancel, ht, hu, Option.map_some, Option.getD_some]
  rw [Nat.max_eq_right (Nat.le_of_lt hlt), if_neg (Nat.ne_of_lt hlt)]

/-- A single token covers its own characters. -/
theorem Scans.textSpan_single {i n k : Nat} {cs : List Char} {ts : List Token} {t : Token} (h : Scans [] i cs ts)
    (ht : ts[k]? = some t) : textSpan ts n (.single k) = t.span :=
  h.textSpan_eq ht ht (Nat.le_refl k)

/-- The tokens of a window of a list are further along in the list. -/
theorem getElem?_window {before window after : List Token} {k : Nat} (hk : k < window.length) :
    (before ++ (window ++ after))[before.length + k]? = window[k]? := by
  rw [List.getElem?_append_right (Nat.le_add_right _ _), Nat.add_sub_cancel_left, List.getElem?_append_left hk]

/-- Spans of tokens within a window of a list of tokens cover what they cover in the whole list. -/
theorem textSpan_window {i j d m n a b : Nat} {cs cs' : List Char} {ts us before after : List Token}
    (h : Scans [] i cs ts) (h' : Scans [] j cs' us) (hts : ts = before ++ (us.map (Token.shift d) ++ after))
    (hab : a < b) (hb : b ≤ us.length) :
    textSpan ts n ⟨before.length + a, before.length + b⟩ = (textSpan us m ⟨a, b⟩).shift d := by
  have hget : ∀ {k} (hk : k < us.length), ts[before.length + k]? = some (us[k].shift d) := by
    intro k hk
    rw [hts, getElem?_window (by rwa [List.length_map]), List.getElem?_map, List.getElem?_eq_getElem hk,
      Option.map_some]
  obtain ⟨b, rfl⟩ := Nat.exists_eq_add_one_of_ne_zero (Nat.ne_zero_of_lt hab)
  have ha : a < us.length := by omega
  rw [← Nat.add_assoc, h.textSpan_eq (hget ha) (hget hb) (by omega),
    h'.textSpan_eq (List.getElem?_eq_getElem ha) (List.getElem?_eq_getElem hb) (by omega)]
  rfl

/-- The tokens that spell an expression, between those consumed before and those left ahead. -/
theorem Spells.exists_window {e : Expr Span} {s s' : TokenStream Token} (h : Spells e s s') :
    ∃ before window, s.buffer.toList = before ++ (window ++ s'.rest) ∧ before.length = s.position ∧
      window.map Token.kind = e.kinds := by
  obtain ⟨window, hrest, hkinds⟩ := h.rest_eq
  refine ⟨s.buffer.toList.take s.position, window, ?_, ?_, hkinds⟩
  · rw [← hrest]
    exact (List.take_append_drop _ _).symm
  · rw [List.length_take, Array.length_toList, Nat.min_eq_left s.position_le_size]

theorem width_eq_of_kinds {window : List Token} {x : Expr σ} (h : window.map Token.kind = x.kinds) :
    x.width = window.length := by
  rw [Expr.width, ← h, List.length_map]

/-! ## Texts -/

/-- A list of tokens is read as a whole when it spells a sum. -/
theorem parse_whole_eq_ok_iff {ts : List Token} {e : Expr Span} {s' : TokenStream Token} :
    (Calculator.expression <* endOfInput).parse (.ofList ts) = .ok ⟨e, s'⟩ ↔
      WellShaped .sum e ∧ Spells e (.ofList ts) s' ∧ s'.rest = [] := by
  rw [seqLeft_eq, parse_keepLeft_eq_ok_iff]
  refine ⟨fun hleft => ?_, fun hright => ?_⟩
  · obtain ⟨⟨e₁, s₁⟩, r₂, hx, hend, heq⟩ := hleft
    obtain ⟨hnil, hr₂⟩ := parse_endOfInput_eq_ok_iff.1 hend
    cases heq
    have hread := (parse_expression_eq_ok_iff _ _ _).1 hx
    rw [hr₂]
    exact ⟨hread.shaped, hread.spelled, hnil⟩
  · obtain ⟨hshape, hspell, hnil⟩ := hright
    have hends : Level.sum.EndsBefore (ahead s') := by
      rw [ahead, hnil]
      intro sym hsym
      cases hsym
    exact ⟨⟨e, s'⟩, ⟨(), s'⟩, (parse_expression_eq_ok_iff _ _ _).2 ⟨hshape, hspell, hends⟩,
      parse_endOfInput_eq_ok_iff.2 ⟨hnil, rfl⟩, rfl⟩

/-- A text is read when its tokens spell a sum, which is then given its places in characters. -/
theorem parse_eq_ok_iff {text : String} {tree : Expr Span} :
    parse text = .ok tree ↔
      ∃ ts e s', Scans [] 0 text.toList ts ∧ WellShaped .sum e ∧ Spells e (.ofList ts) s' ∧ s'.rest = [] ∧
        tree = e.map (textSpan ts text.length) := by
  refine ⟨fun hleft => ?_, fun hright => ?_⟩
  · unfold parse at hleft
    cases htokens : tokens.parse (.ofText text) with
    | error f =>
      rw [htokens] at hleft
      nomatch hleft
    | ok scanned =>
      cases hwhole : (Calculator.expression <* endOfInput).parse (.ofList scanned.value) with
      | error f =>
        simp only [htokens, hwhole] at hleft
        nomatch hleft
      | ok r =>
        simp only [htokens, hwhole, Except.ok.injEq] at hleft
        obtain ⟨hshape, hspell, hnil⟩ := parse_whole_eq_ok_iff.1 hwhole
        exact ⟨scanned.value, r.value, r.remaining, (parse_tokens_eq_ok_iff.1 htokens).1, hshape, hspell, hnil,
          hleft.symm⟩
  · obtain ⟨ts, e, s', hscans, hshape, hspell, hnil, rfl⟩ := hright
    have htokens : tokens.parse (.ofText text) = .ok ⟨ts, (ofText text).advance text.toList.length⟩ :=
      parse_tokens_eq_ok_iff.2 ⟨hscans, rfl⟩
    have hwhole := parse_whole_eq_ok_iff.2 ⟨hshape, hspell, hnil⟩
    unfold parse
    rw [htokens]
    dsimp only
    rw [hwhole]

/-- A text is read as a sum when its tokens are of the kinds that write it. -/
theorem parse_eq_ok_iff_kinds {text : String} {tree : Expr Span} :
    parse text = .ok tree ↔
      ∃ (ts : List Token) (e : Expr Unit), Scans [] 0 text.toList ts ∧ WellShaped .sum e ∧ ts.map Token.kind = e.kinds ∧
        tree = (e.locate 0).map (textSpan ts text.length) := by
  rw [parse_eq_ok_iff]
  refine ⟨fun hleft => ?_, fun hright => ?_⟩
  · obtain ⟨ts, e, s', hscans, hshape, hspell, hnil, rfl⟩ := hleft
    obtain ⟨hlocated, -, hahead⟩ := hspell.located
    have hleft : ahead s' = [] := by
      rw [ahead, hnil, List.map_nil]
    rw [hleft, List.append_nil] at hahead
    refine ⟨ts, e.shape, hscans, hshape.map _, ?_, ?_⟩
    · rw [Expr.kinds_shape]
      exact hahead
    · rw [Expr.shape, Expr.locate_map]
      exact congrArg (Expr.map _) hlocated
  · obtain ⟨ts, e, hscans, hshape, hkinds, rfl⟩ := hright
    have hahead : ahead (.ofList ts) = e.kinds ++ [] := by
      rw [List.append_nil]
      exact hkinds
    refine ⟨ts, e.locate 0, _, hscans, hshape.locate 0, spells_locate hahead, ?_, rfl⟩
    have hwidth : e.width = ts.length := by
      rw [Expr.width, ← hkinds, List.length_map]
    rw [rest_advance, rest_ofList, hwidth, List.drop_length]

/-- A text whose tokens are of the kinds that write a sum is read as this sum. -/
theorem exists_parse_of_kinds {text : String} {ts : List Token} {e : Expr Unit} (hscans : Scans [] 0 text.toList ts)
    (hshape : WellShaped .sum e) (hkinds : ts.map Token.kind = e.kinds) :
    ∃ tree, parse text = .ok tree ∧ tree.shape = e :=
  ⟨_, parse_eq_ok_iff_kinds.2 ⟨ts, e, hscans, hshape, hkinds, rfl⟩, e.shape_map_locate _ 0⟩

/-- Every node of the expression of a text is a sum that a window of the tokens spells. -/
theorem exists_window_of_mem_preorder {text : String} {tree e : Expr Span} {depth : Nat} (h : parse text = .ok tree)
    (he : (depth, e) ∈ tree.preorder 0) :
    ∃ (before window after : List Token) (x : Expr Span),
      Scans [] 0 text.toList (before ++ (window ++ after)) ∧ WellShaped .sum x ∧ window.map Token.kind = x.kinds ∧
      e = (x.locate before.length).map (textSpan (before ++ (window ++ after)) text.length) := by
  obtain ⟨ts, t, s', hscans, hshape, hspell, -, rfl⟩ := parse_eq_ok_iff.1 h
  rw [Expr.preorder_map, List.mem_map] at he
  obtain ⟨⟨d, x⟩, hx, heq⟩ := he
  cases heq
  obtain ⟨s₁, s₂, hspell', hbuffer⟩ := hspell.of_mem_preorder hx
  obtain ⟨before, window, hts, hbefore, hwindow⟩ := hspell'.exists_window
  rw [hbuffer, ofList, List.toList_toArray] at hts
  subst hts
  refine ⟨before, window, s₂.rest, x, hscans, hshape.of_mem_preorder hx, hwindow, ?_⟩
  rw [hbefore, ← hspell'.located.1]

/-- An expression covers the characters from its first token to its last. -/
theorem place_window {i n : Nat} {cs : List Char} {before window after : List Token} {first last : Token} {x : Expr σ}
    (h : Scans [] i cs (before ++ (window ++ after))) (hwindow : window.map Token.kind = x.kinds)
    (hfirst : window.head? = some first) (hlast : window.getLast? = some last) :
    ((x.locate before.length).map (textSpan (before ++ (window ++ after)) n)).place =
      ⟨first.span.start, last.span.stop⟩ := by
  have hwidth := width_eq_of_kinds hwindow
  have hpos := x.width_pos
  rw [List.head?_eq_getElem?, ← getElem?_window (show 0 < window.length by omega)] at hfirst
  rw [List.getLast?_eq_getElem?, ← getElem?_window (show window.length - 1 < window.length by omega)] at hlast
  rw [Expr.place_map, Expr.place_locate, hwidth, ← h.textSpan_eq hfirst hlast (by omega)]
  congr 2
  omega

/-- Every part of the expression of a text is what the characters it covers are read as by themselves, with every place
moved to where they stand in the text. -/
theorem parse_covered {text : String} {tree e : Expr Span} {depth : Nat} (h : parse text = .ok tree)
    (he : (depth, e) ∈ tree.preorder 0) :
    ∃ e', parse (String.ofList (covered text.toList e.place)) = .ok e' ∧ e'.map (Span.shift e.place.start) = e := by
  obtain ⟨before, window, after, x, hscans, hshape, hwindow, rfl⟩ := exists_window_of_mem_preorder h he
  have hwidth := width_eq_of_kinds hwindow
  have hne : window ≠ [] := by
    rw [← List.length_pos_iff, ← hwidth]
    exact x.width_pos
  have hfirst : window.head? = some (window.head hne) := List.head?_eq_some_head hne
  have hlast : window.getLast? = some (window.getLast hne) := List.getLast?_eq_some_getLast hne
  rw [place_window hscans hwindow hfirst hlast]
  -- `us` are the tokens of the part by itself, of the same kinds as those of the window
  obtain ⟨us, hus, hmap⟩ := hscans.covered hfirst hlast
  have hahead : ahead (.ofList us) = x.kinds ++ [] := by
    rw [List.append_nil, ← hwindow, ← hmap, List.map_map]
    rfl
  have hlength : us.length = x.width := by
    rw [hwidth, ← hmap, List.length_map]
  refine ⟨(x.locate 0).map (textSpan us _), parse_eq_ok_iff.2 ⟨us, x.locate 0, _, ?_, hshape.locate 0,
    spells_locate hahead, ?_, rfl⟩, ?_⟩
  · rwa [String.toList_ofList]
  · rw [rest_advance, rest_ofList, ← hlength, List.drop_length]
  · rw [Expr.map_map]
    refine Expr.map_locate_eq fun a b hab hb => ?_
    rw [Nat.zero_add, Nat.zero_add, textSpan_window hscans hus (by rw [hmap]) hab (by rwa [hlength])]
    rfl

/-- The group of a negative, whose text is read as the same group at the start. -/
theorem parse_covered_of_negated_group :
    ∃ e', parse (String.ofList (covered "1 + -(2)".toList ⟨5, 8⟩)) = .ok e' ∧
      e'.map (Span.shift 5) = .group (.number (Decimal.nearest 2 1 0) ⟨6, 7⟩) ⟨5, 8⟩ := by
  have h : parse "1 + -(2)" =
      .ok (.binary .add (.number (Decimal.nearest 1 1 0) ⟨0, 1⟩)
        (.negate (.group (.number (Decimal.nearest 2 1 0) ⟨6, 7⟩) ⟨5, 8⟩) ⟨4, 8⟩) ⟨0, 8⟩) := rfl
  have he : (2, Expr.group (.number (Decimal.nearest 2 1 0) (Span.mk 6 7)) ⟨5, 8⟩) ∈
      (Expr.binary .add (.number (Decimal.nearest 1 1 0) ⟨0, 1⟩)
        (.negate (.group (.number (Decimal.nearest 2 1 0) ⟨6, 7⟩) ⟨5, 8⟩) ⟨4, 8⟩) ⟨0, 8⟩).preorder 0 :=
    .tail _ (.tail _ (.tail _ (.head _)))
  simpa only [Expr.place] using parse_covered h he

end TokenParsing.Calculator
