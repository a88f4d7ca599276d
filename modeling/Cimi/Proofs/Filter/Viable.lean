import Cimi.Proofs.Filter.Stops

/-!
# Tokens that have an outline are all expected

If tokens have the form of a filter, their reading ends well, or with an error about a value or about
the sides of a comparison (`Outline.reads`).  So where a token is not the expected one, whatever comes
after it, there is no outline.
-/

namespace Cimi.Filter

/-- Whether an error says that a token is not the expected one. -/
def Error.isMismatch : Error → Bool
  | .unexpectedToken .. | .unexpectedEnd _ => true
  | _ => false

theorem Token.Invalid.isMismatch {t : Token} {e : Error} (h : t.Invalid e) :
    e.isMismatch = false := by
  cases h <;> rfl

/-- Reading a list of tokens by a rule ends with an error. -/
def Fails : Rule → Error → List Lexeme → Prop
  | .comparison, e, ts => ∀ outer g, term outer g ts = .error e
  | .conjunction, e, ts => ∀ outer a, term outer ⟨a, none⟩ ts = .error e
  | .filter, e, ts => ∀ outer, term outer .empty ts = .error e

/-- Reading a list of tokens by a rule reads a filter as far as the tokens `vs`, or ends with an error
that is no mismatch. -/
def ReadsOrFails (rule : Rule) (ts : List Lexeme) (vs : List Token) : Prop :=
  (∃ f rest, tokens rest = vs ∧ Reads rule f ts rest) ∨ ∃ e, e.isMismatch = false ∧ Fails rule e ts

section

variable {n : Nat} {text : List Char} {f : Filter} {ts mid : List Lexeme} {us vs : List Token}
  {e : Error}

theorem ReadsOrFails.alone (h : ReadsOrFails .conjunction ts vs) : ReadsOrFails .filter ts vs := by
  rcases h with ⟨f, rest, hrest, h⟩ | ⟨e, he, h⟩
  · exact .inl ⟨f, rest, hrest, h.alone⟩
  · exact .inr ⟨e, he, fun outer => h outer none⟩

theorem ReadsOrFails.single (h : ReadsOrFails .comparison ts vs) :
    ReadsOrFails .conjunction ts vs := by
  rcases h with ⟨f, rest, hrest, h⟩ | ⟨e, he, h⟩
  · exact .inl ⟨f, rest, hrest, h.single⟩
  · exact .inr ⟨e, he, fun outer a => h outer ⟨a, none⟩⟩

theorem ReadsOrFails.or (hf : ReadsOrFails .filter ts (.word "or" :: us))
    (hg : ∀ mid, tokens mid = us → ReadsOrFails .conjunction mid vs) :
    ReadsOrFails .filter ts vs := by
  rcases hf with ⟨f, mid, hmid, hf⟩ | ⟨e, he, hf⟩
  · obtain ⟨_, _, mid, rfl, hmid'⟩ := tokens_eq_cons hmid
    rcases hg mid hmid' with ⟨g, rest, hrest, hg⟩ | ⟨e, he, hg⟩
    · exact .inl ⟨_, rest, hrest, hf.or rfl hg⟩
    · exact .inr ⟨e, he, fun outer => by rw [hf.term_or rfl, hg]⟩
  · exact .inr ⟨e, he, hf⟩

theorem ReadsOrFails.and (hf : ReadsOrFails .conjunction ts (.word "and" :: us))
    (hg : ∀ mid, tokens mid = us → ReadsOrFails .comparison mid vs) :
    ReadsOrFails .conjunction ts vs := by
  rcases hf with ⟨f, mid, hmid, hf⟩ | ⟨e, he, hf⟩
  · obtain ⟨_, _, mid, rfl, hmid'⟩ := tokens_eq_cons hmid
    rcases hg mid hmid' with ⟨g, rest, hrest, hg⟩ | ⟨e, he, hg⟩
    · exact .inl ⟨_, rest, hrest, hf.and rfl hg⟩
    · exact .inr ⟨e, he, fun outer a => by rw [hf.term_and rfl, hg]⟩
  · exact .inr ⟨e, he, hf⟩

theorem ReadsOrFails.parenthesized (h : ReadsOrFails .filter ts (.closeParen :: vs)) :
    ReadsOrFails .comparison (⟨n, text, .openParen⟩ :: ts) vs := by
  rcases h with ⟨f, mid, hmid, h⟩ | ⟨e, he, h⟩
  · obtain ⟨_, _, rest, rfl, hrest⟩ := tokens_eq_cons hmid
    exact .inl ⟨f, rest, hrest, h.parenthesized rfl rfl⟩
  · exact .inr ⟨e, he, fun outer g => by rw [term_openParen rfl, h]⟩

end

/-! ## Comparisons -/

section

variable {us vs ws : List Token} {left right : Side} {ts : List Lexeme} {o : Op}

theorem OutlinesSide.spells_or_invalid (h : OutlinesSide us left) :
    (∃ o, SpellsOperand us o) ∨ ∃ t e, us = [t] ∧ t.Invalid e := by
  rcases h with ha | digits | s | text | _ | _
  · exact .inl ⟨_, .attribute ha⟩
  · by_cases hle : Text.Decimal.value digits.toList ≤ maxInt
    · exact .inl ⟨_, .literal (.int hle)⟩
    · exact .inr ⟨_, _, rfl, .int (Nat.lt_of_not_le hle)⟩
  · exact .inl ⟨_, .literal (.string s)⟩
  · rcases hi : Instant.ofText text.toList with reason | i
    · exact .inr ⟨_, _, rfl, .date hi⟩
    · exact .inl ⟨_, .literal (.date hi)⟩
  · exact .inl ⟨_, .literal .yes⟩
  · exact .inl ⟨_, .literal .no⟩

theorem operand_of_invalid {t : Lexeme} {e : Error} (h : t.token.Invalid e) (rest : List Lexeme) :
    operand (t :: rest) = .error e := by
  obtain ⟨n, text, token⟩ := t
  cases h with
  | int hlt => simp [operand, intOfDigits, Nat.not_le_of_lt hlt, Except.map]
  | date hi => simp [operand, instantOfText, hi, Except.map, Except.mapError]

/-- Tokens that have the form of a side are read as one, unless their value is out of range. -/
theorem OutlinesSide.reads (h : OutlinesSide us left) (hv : NoBracket vs)
    (hts : tokens ts = us ++ vs) :
    (∃ o r, operand ts = .ok (o, r) ∧ tokens r.1 = vs) ∨
      ∃ e, e.isMismatch = false ∧ operand ts = .error e := by
  rcases h.spells_or_invalid with ⟨o, ho⟩ | ⟨t, e, rfl, ht⟩
  · obtain ⟨r, hr, hrest⟩ := operand_of_spells ho hv hts
    exact .inl ⟨o, r, hr, hrest⟩
  · obtain ⟨n, text, rest, rfl, -⟩ := tokens_eq_cons hts
    exact .inr ⟨e, ht.isMismatch, operand_of_invalid ht rest⟩

theorem comparison?_of_outlines (hl : OutlinesSide us left) (hr : OutlinesSide vs right)
    (hw : NoBracket ws) (hts : tokens ts = us ++ .op o :: (vs ++ ws)) :
    (∃ c r, comparison? ts = .ok (c, r) ∧ tokens r.1 = ws) ∨
      ∃ e, e.isMismatch = false ∧ comparison? ts = .error e := by
  rcases hl.reads (by simp [NoBracket]) hts with ⟨l, r₁, h₁, hts₁⟩ | ⟨e, he, h₁⟩
  · obtain ⟨r₂, h₂, hts₂⟩ := operator_of_tokens hts₁
    rcases hr.reads hw hts₂ with ⟨r, r₃, h₃, hts₃⟩ | ⟨e, he, h₃⟩
    · by_cases hm : Comparison.isMixed ⟨l, o, r⟩
      · refine .inl ⟨⟨l, o, r⟩, ⟨r₃.1, Nat.lt_trans r₃.2 (Nat.lt_trans r₂.2 r₁.2)⟩, ?_, hts₃⟩
        simp [comparison?, bind, Except.bind, h₁, h₂, h₃, hm, pure, Except.pure]
      · refine .inr ⟨.noSingleAttribute ((ts.head?.map (·.start)).getD 0), rfl, ?_⟩
        simp [comparison?, bind, Except.bind, h₁, h₂, h₃, hm, throw, throwThe,
          MonadExceptOf.throw]
    · refine .inr ⟨e, he, ?_⟩
      simp [comparison?, bind, Except.bind, h₁, h₂, h₃]
  · exact .inr ⟨e, he, comparison?_of_left h₁⟩

theorem term_error {e : Error} (h : comparison? ts = .error e)
    (hp : ∀ t, ts.head? = some t → t.token ≠ .openParen) (outer : List Group) (g : Group) :
    term outer g ts = .error e := by
  rw [term.eq_def]
  split
  · exact absurd rfl (hp _ rfl)
  · rw [h]

/-- A comparison that begins with a parenthesis is a mismatch. -/
theorem token_ne_openParen {e : Error} (h : comparison? ts = .error e) (he : e.isMismatch = false)
    {t : Lexeme} (ht : ts.head? = some t) : t.token ≠ .openParen := by
  obtain ⟨rest, rfl⟩ := List.head?_eq_some_iff.1 ht
  intro hopen
  rw [comparison?_of_left (e := .unexpected .operand (t :: rest)) (by simp [operand, hopen])] at h
  cases h
  cases he

end

/-- Tokens that have the form of a filter are read to their end, or to a value or to the sides of a
comparison. -/
theorem Outline.reads {rule : Rule} {us : List Token} {ps : List Place} (h : Outline rule us ps) :
    ∀ {ts : List Lexeme} {vs : List Token}, tokens ts = us ++ vs → NoBracket vs →
      ReadsOrFails rule ts vs := by
  induction h with
  | alone _ ih => exact fun hts hv => (ih hts hv).alone
  | single _ ih => exact fun hts hv => (ih hts hv).single
  | or _ _ ihf ihg =>
    intro ts vs hts hv
    rw [List.append_assoc, List.cons_append] at hts
    exact (ihf hts (by simp [NoBracket])).or fun mid hmid => ihg hmid hv
  | and _ _ ihf ihg =>
    intro ts vs hts hv
    rw [List.append_assoc, List.cons_append] at hts
    exact (ihf hts (by simp [NoBracket])).and fun mid hmid => ihg hmid hv
  | parenthesized _ ih =>
    intro ts vs hts hv
    rw [List.cons_append, List.append_assoc] at hts
    obtain ⟨_, _, inner, rfl, hinner⟩ := tokens_eq_cons hts
    exact (ih hinner (by simp [NoBracket])).parenthesized
  | comparison o hl hr =>
    intro ts vs hts hv
    rw [List.append_assoc, List.cons_append] at hts
    rcases comparison?_of_outlines hl hr hv hts with ⟨c, r, hc, hrest⟩ | ⟨e, he, hc⟩
    · exact .inl ⟨.comparison c, r.1, hrest, term_comparison hc⟩
    · exact .inr ⟨e, he, term_error hc fun t ht => token_ne_openParen hc he ht⟩

/-- The reading of tokens that have an outline does not end with a mismatch. -/
theorem Outline.not_isMismatch {ts : List Lexeme} {ps : List Place}
    (h : Outline .filter (tokens ts) ps) {e : Error} (he : ofLexemes ts = .error e) :
    e.isMismatch = false := by
  rcases h.reads (List.append_nil _).symm (by simp [NoBracket]) with ⟨f, rest, hrest, g, t, -, hread⟩ |
    ⟨e', he', hfail⟩
  · obtain rfl : rest = [] := List.map_eq_nil_iff.1 hrest
    rw [ofLexemes, hread, afterTerm.eq_def] at he
    cases he
  · rw [ofLexemes, hfail] at he
    cases he
    exact he'

end Cimi.Filter
