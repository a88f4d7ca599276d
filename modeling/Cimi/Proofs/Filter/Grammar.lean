import Cimi.Filter.Parser
import Mathlib.Tactic.Common

/-!
# The grammar of filters

`Spells` is the grammar, rule by rule: a filter is conjunctions joined by `or`, a conjunction is
comparisons joined by `and`, and a comparison has an attribute on one side and a literal on the
other, or is a filter in parentheses.  Joined members nest to the left.

Reading a list of tokens answers a filter exactly if the list spells it (`ofLexemes_ok_iff`).  One
direction follows the reading (`term_spells`): what has been read of the open groups, put before
what is still to be read, spells the answer.  The other follows the grammar (`Spells.reads`): a list
that spells a filter brings the reading to the same state as the filter itself.
-/

namespace Cimi.Filter

/-- The tokens of lexemes. -/
def tokens (ts : List Lexeme) : List Token := ts.map (·.token)

@[simp] theorem tokens_nil : tokens [] = [] := rfl

@[simp] theorem tokens_cons (t : Lexeme) (ts : List Lexeme) :
    tokens (t :: ts) = t.token :: tokens ts := rfl

@[simp] theorem tokens_append (ts us : List Lexeme) : tokens (ts ++ us) = tokens ts ++ tokens us :=
  List.map_append

@[simp] theorem length_tokens (ts : List Lexeme) : (tokens ts).length = ts.length :=
  List.length_map ..

theorem tokens_eq_cons {ts : List Lexeme} {t : Token} {us : List Token}
    (h : tokens ts = t :: us) : ∃ n text rest, ts = ⟨n, text, t⟩ :: rest ∧ tokens rest = us := by
  obtain ⟨⟨n, text, t'⟩, rest, rfl, rfl, rfl⟩ := List.map_eq_cons_iff.1 h
  exact ⟨n, text, rest, rfl, rfl⟩

/-- The words that are no attribute's name. -/
def reservedWords : List String := ["and", "or", "true", "false"]

/-- The tokens that spell an attribute. -/
inductive SpellsAttribute : List Token → Attribute → Prop
  | name {n : String} (h : n ∉ reservedWords) : SpellsAttribute [.word n] (.name n)
  | property (key : String) :
    SpellsAttribute [.word "property", .openBracket, .string key, .closeBracket] (.property key)

/-- The tokens that spell a literal. -/
inductive SpellsLiteral : List Token → Literal → Prop
  | int {digits : String} (h : Text.Decimal.value digits.toList ≤ maxInt) :
    SpellsLiteral [.int digits] (.int (Text.Decimal.value digits.toList))
  | string (s : String) : SpellsLiteral [.string s] (.string s)
  | date {text : String} {i : Instant} (h : Instant.ofText text.toList = .ok i) :
    SpellsLiteral [.date text] (.date text i)
  | yes : SpellsLiteral [.word "true"] (.bool true)
  | no : SpellsLiteral [.word "false"] (.bool false)

/-- The tokens that spell a side of a comparison. -/
inductive SpellsOperand : List Token → Operand → Prop
  | attribute {ts : List Token} {a : Attribute} (h : SpellsAttribute ts a) :
    SpellsOperand ts (.attribute a)
  | literal {ts : List Token} {l : Literal} (h : SpellsLiteral ts l) : SpellsOperand ts (.literal l)

/-- The rules of the grammar that read a filter. -/
inductive Rule where
  | filter
  | conjunction
  | comparison
deriving DecidableEq, Repr

/-- The tokens that spell a filter by a rule of the grammar. -/
inductive Spells : Rule → List Token → Filter → Prop
  | alone {ts : List Token} {f : Filter} (h : Spells .conjunction ts f) : Spells .filter ts f
  | or {ts us : List Token} {f g : Filter} (hf : Spells .filter ts f)
    (hg : Spells .conjunction us g) : Spells .filter (ts ++ .word "or" :: us) (.or f g)
  | single {ts : List Token} {f : Filter} (h : Spells .comparison ts f) : Spells .conjunction ts f
  | and {ts us : List Token} {f g : Filter} (hf : Spells .conjunction ts f)
    (hg : Spells .comparison us g) : Spells .conjunction (ts ++ .word "and" :: us) (.and f g)
  | parenthesized {ts : List Token} {f : Filter} (h : Spells .filter ts f) :
    Spells .comparison (.openParen :: (ts ++ [.closeParen])) f
  | attributeFirst {ts us : List Token} {a : Attribute} {l : Literal} (o : Op)
    (ha : SpellsAttribute ts a) (hl : SpellsLiteral us l) :
    Spells .comparison (ts ++ .op o :: us) (.comparison ⟨.attribute a, o, .literal l⟩)
  | literalFirst {ts us : List Token} {a : Attribute} {l : Literal} (o : Op)
    (hl : SpellsLiteral ts l) (ha : SpellsAttribute us a) :
    Spells .comparison (ts ++ .op o :: us) (.comparison ⟨.literal l, o, .attribute a⟩)

/-! ## What is read is spelled -/

section Soundness

theorem intOfDigits_ok {digits : String} {n : Nat} (h : intOfDigits digits = .ok n) :
    n = Text.Decimal.value digits.toList ∧ n ≤ maxInt := by
  simp only [intOfDigits] at h
  split_ifs at h with hn
  cases h
  exact ⟨rfl, hn⟩

theorem instantOfText_ok {text : String} {i : Instant} :
    instantOfText text = .ok i ↔ Instant.ofText text.toList = .ok i := by
  unfold instantOfText
  cases Instant.ofText text.toList <;> simp [Except.mapError]

theorem bracket?_some {ts : List Lexeme} {r : Remaining ts} (h : bracket? ts = some r) :
    tokens ts = .openBracket :: tokens r.1 := by
  unfold bracket? at h
  split at h
  · cases h
    rfl
  · simp at h

theorem propertyKey_ok {ts : List Lexeme} {key : String} {r : Remaining ts}
    (h : propertyKey ts = .ok (key, r)) :
    tokens ts = .string key :: .closeBracket :: tokens r.1 := by
  unfold propertyKey at h
  split at h
  · cases h
    rfl
  · simp at h
  · simp at h

theorem operand_ok {ts : List Lexeme} {o : Operand} {r : Remaining ts}
    (h : operand ts = .ok (o, r)) : ∃ us, SpellsOperand us o ∧ tokens ts = us ++ tokens r.1 := by
  unfold operand at h
  rcases ts with _ | ⟨t, rest⟩
  · simp at h
  simp only at h
  split at h
  · rename_i digits ht
    rcases hn : intOfDigits digits with e | n <;> rw [hn] at h <;> cases h
    obtain ⟨rfl, hle⟩ := intOfDigits_ok hn
    exact ⟨_, .literal (.int hle), by simp [ht]⟩
  · rename_i s ht
    cases h
    exact ⟨_, .literal (.string s), by simp [ht]⟩
  · rename_i text ht
    rcases hi : instantOfText text with e | i <;> rw [hi] at h <;> cases h
    exact ⟨_, .literal (.date (instantOfText_ok.1 hi)), by simp [ht]⟩
  · rename_i name ht
    have hname (h1 : name ≠ "true") (h2 : name ≠ "false")
        (h3 : ¬(decide (name = "and") || decide (name = "or")) = true) :
        SpellsOperand [.word name] (.attribute (.name name)) := by
      simp only [Bool.or_eq_true, decide_eq_true_eq, not_or] at h3
      exact .attribute (.name (by simp [reservedWords, h1, h2, h3]))
    split_ifs at h with h1 h2 h3 hp
    · cases h
      exact ⟨_, .literal .yes, by simp [ht, h1]⟩
    · cases h
      exact ⟨_, .literal .no, by simp [ht, h2]⟩
    · split at h
      · cases h
        exact ⟨_, hname h1 h2 h3, by simp [ht]⟩
      · rename_i inside hb
        rcases hk : propertyKey inside.1 with e | ⟨key, left⟩ <;> rw [hk] at h <;> cases h
        refine ⟨_, .attribute (.property key), ?_⟩
        simp [ht, hp, bracket?_some hb, propertyKey_ok hk]
    · cases h
      exact ⟨_, hname h1 h2 h3, by simp [ht]⟩
  · simp at h

theorem operator_ok {ts : List Lexeme} {o : Op} {r : Remaining ts}
    (h : operator ts = .ok (o, r)) : tokens ts = .op o :: tokens r.1 := by
  unfold operator at h
  split at h
  · cases h
    rfl
  · simp at h

theorem spells_of_isMixed {ts us : List Token} {c : Comparison} (hc : c.isMixed = true)
    (hl : SpellsOperand ts c.left) (hr : SpellsOperand us c.right) :
    Spells .comparison (ts ++ .op c.op :: us) (.comparison c) := by
  obtain ⟨left, o, right⟩ := c
  rcases hl with ha | hl <;> rcases hr with ha' | hl'
  · simp [Comparison.isMixed] at hc
  · exact .attributeFirst o ha hl'
  · exact .literalFirst o hl ha'
  · simp [Comparison.isMixed] at hc

theorem comparison?_ok {ts : List Lexeme} {c : Comparison} {r : Remaining ts}
    (h : comparison? ts = .ok (c, r)) :
    ∃ us, Spells .comparison us (.comparison c) ∧ tokens ts = us ++ tokens r.1 := by
  simp only [comparison?, bind, Except.bind] at h
  rcases hl : operand ts with e | ⟨left, r₁⟩ <;> rw [hl] at h
  · cases h
  simp only at h
  rcases ho : operator r₁.1 with e | ⟨o, r₂⟩ <;> rw [ho] at h
  · cases h
  simp only at h
  rcases hr : operand r₂.1 with e | ⟨right, r₃⟩ <;> rw [hr] at h
  · cases h
  simp only at h
  split_ifs at h with hm
  · cases h
    obtain ⟨us, hus, hts⟩ := operand_ok hl
    obtain ⟨vs, hvs, hts'⟩ := operand_ok hr
    refine ⟨_, spells_of_isMixed hm hus hvs, ?_⟩
    rw [hts, operator_ok ho, hts']
    simp

/-- What has been joined in a group and the tokens that spell it, with the word after them. -/
inductive Joined (rule : Rule) (word : String) : Option Filter → List Token → Prop
  | none : Joined rule word none []
  | some {ts : List Token} {f : Filter} (h : Spells rule ts f) :
    Joined rule word (some f) (ts ++ [.word word])

/-- The tokens that have been read of a group. -/
inductive GroupReads : Group → List Token → Prop
  | intro {g : Group} {us vs : List Token} (ha : Joined .filter "or" g.alternatives us)
    (hc : Joined .conjunction "and" g.conjuncts vs) : GroupReads g (us ++ vs)

/-- The tokens that have been read of the groups around the innermost one, which a parenthesis has
opened. -/
inductive OuterReads : List Group → List Token → Prop
  | nil : OuterReads [] []
  | cons {outer : List Group} {g : Group} {us vs : List Token} (ho : OuterReads outer us)
    (hg : GroupReads g vs) : OuterReads (g :: outer) (us ++ (vs ++ [.openParen]))

theorem groupReads_empty : GroupReads .empty [] := @GroupReads.intro .empty [] [] .none .none

/-- A term ends the conjunction it stands in. -/
theorem Joined.conjunction {g : Group} {us ts : List Token} {f : Filter}
    (hg : Joined .conjunction "and" g.conjuncts us) (hf : Spells .comparison ts f) :
    Spells .conjunction (us ++ ts) (g.conjunction f) := by
  rcases g with ⟨a, _ | c⟩
  · cases hg
    exact .single hf
  · cases hg with
    | some h => simpa [Group.conjunction] using h.and hf

/-- A term ends the group it stands in. -/
theorem GroupReads.filter {g : Group} {us ts : List Token} {f : Filter} (hg : GroupReads g us)
    (hf : Spells .comparison ts f) : Spells .filter (us ++ ts) (g.filter f) := by
  obtain ⟨ha, hc⟩ := hg
  have hconj := hc.conjunction hf
  rcases g with ⟨_ | a, c⟩
  · cases ha
    simpa [Group.filter] using hconj.alone
  · cases ha with
    | some h => simpa [Group.filter] using h.or hconj

theorem GroupReads.and {g : Group} {us ts : List Token} {f : Filter} (hg : GroupReads g us)
    (hf : Spells .comparison ts f) : GroupReads (g.and f) (us ++ ts ++ [.word "and"]) := by
  obtain ⟨ha, hc⟩ := hg
  have h : GroupReads (g.and f) _ := .intro ha (.some (hc.conjunction hf))
  simpa using h

theorem GroupReads.or {g : Group} {us ts : List Token} {f : Filter} (hg : GroupReads g us)
    (hf : Spells .comparison ts f) : GroupReads (g.or f) (us ++ ts ++ [.word "or"]) := by
  have h : GroupReads (g.or f) _ := .intro (.some (hg.filter hf)) .none
  simpa using h

mutual

/-- Together with what has been read, the tokens from which the reading of a term ends well spell
its answer. -/
theorem term_spells {outer : List Group} {g : Group} {ts : List Lexeme} {f : Filter}
    {us vs : List Token} (h : term outer g ts = .ok f) (ho : OuterReads outer us)
    (hg : GroupReads g vs) : Spells .filter (us ++ (vs ++ tokens ts)) f := by
  rw [term.eq_def] at h
  split at h
  · rename_i rest
    have := term_spells h (.cons ho hg) groupReads_empty
    simpa using this
  · rcases hc : comparison? ts with e | ⟨c, rest, hlt⟩ <;> rw [hc] at h
    · cases h
    · obtain ⟨ws, hws, hts⟩ := comparison?_ok hc
      rw [hts]
      exact afterTerm_spells h ho hg hws
termination_by ts.length

theorem afterTerm_spells {outer : List Group} {g : Group} {t f : Filter} {ts : List Lexeme}
    {us vs ws : List Token} (h : afterTerm outer g t ts = .ok f) (ho : OuterReads outer us)
    (hg : GroupReads g vs) (ht : Spells .comparison ws t) :
    Spells .filter (us ++ (vs ++ (ws ++ tokens ts))) f := by
  rw [afterTerm.eq_def] at h
  split at h
  · have := term_spells h ho (hg.and ht)
    simpa using this
  · have := term_spells h ho (hg.or ht)
    simpa using this
  · split at h
    · cases h
      cases ho
      simpa using hg.filter ht
    · cases h
    · -- the parenthesis makes the whole group a term of the group around it
      cases ho with
      | cons ho hg' =>
        have := afterTerm_spells h ho hg' (.parenthesized (hg.filter ht))
        simpa using this
    · cases h
termination_by ts.length

end

end Soundness

/-! ## What is spelled is read -/

section Completeness

/-- No bracket comes next, so a word `property` before it is an attribute's name. -/
def NoBracket (us : List Token) : Prop := us.head? ≠ some .openBracket

theorem operand_of_spells {us vs : List Token} {o : Operand} (h : SpellsOperand us o)
    (hv : NoBracket vs) {ts : List Lexeme} (hts : tokens ts = us ++ vs) :
    ∃ r, operand ts = .ok (o, r) ∧ tokens r.1 = vs := by
  rcases h with ha | hl
  · rcases ha with hn | key
    · rename_i name
      obtain ⟨n, text, rest, rfl, rfl⟩ := tokens_eq_cons hts
      have hb : (if name = "property" then bracket? rest else none) = none := by
        split_ifs
        · unfold bracket?
          split
          · exact absurd rfl hv
          · rfl
        · rfl
      simp only [reservedWords, List.mem_cons, List.not_mem_nil, or_false, not_or] at hn
      exact ⟨⟨rest, Nat.lt_succ_self _⟩, by simp [operand, hn, hb], rfl⟩
    · obtain ⟨n₁, text₁, ts₁, rfl, h₁⟩ := tokens_eq_cons hts
      obtain ⟨n₂, text₂, ts₂, rfl, h₂⟩ := tokens_eq_cons h₁
      obtain ⟨n₃, text₃, ts₃, rfl, h₃⟩ := tokens_eq_cons h₂
      obtain ⟨n₄, text₄, rest, rfl, h₄⟩ := tokens_eq_cons h₃
      exact ⟨⟨rest, by simp only [List.length_cons]; omega⟩, rfl, h₄⟩
  · rcases hl with hle | s | hi | _ | _
    all_goals
      obtain ⟨n, text, rest, rfl, rfl⟩ := tokens_eq_cons hts
      refine ⟨⟨rest, Nat.lt_succ_self _⟩, ?_, rfl⟩
    · simp [operand, intOfDigits, hle, Except.map]
    · rfl
    · simp [operand, instantOfText_ok.2 hi, Except.map]
    · rfl
    · rfl

theorem operator_of_tokens {ts : List Lexeme} {o : Op} {us : List Token}
    (h : tokens ts = .op o :: us) : ∃ r, operator ts = .ok (o, r) ∧ tokens r.1 = us := by
  obtain ⟨n, text, rest, rfl, rfl⟩ := tokens_eq_cons h
  exact ⟨_, rfl, rfl⟩

theorem comparison?_of_spells {us vs ws : List Token} {c : Comparison} (hm : c.isMixed = true)
    (hl : SpellsOperand us c.left) (hr : SpellsOperand vs c.right) (hw : NoBracket ws)
    {ts : List Lexeme} (hts : tokens ts = us ++ .op c.op :: (vs ++ ws)) :
    ∃ r, comparison? ts = .ok (c, r) ∧ tokens r.1 = ws := by
  obtain ⟨r₁, h₁, ht₁⟩ := operand_of_spells hl (by simp [NoBracket]) hts
  obtain ⟨r₂, h₂, ht₂⟩ := operator_of_tokens ht₁
  obtain ⟨r₃, h₃, ht₃⟩ := operand_of_spells hr hw ht₂
  exact ⟨⟨r₃.1, Nat.lt_trans r₃.2 (Nat.lt_trans r₂.2 r₁.2)⟩,
    by simp [comparison?, bind, Except.bind, h₁, h₂, h₃, hm, pure, Except.pure], ht₃⟩

/-- A comparison does not begin with a parenthesis. -/
theorem term_comparison {ts : List Lexeme} {c : Comparison} {r : Remaining ts}
    (h : comparison? ts = .ok (c, r)) (outer : List Group) (g : Group) :
    term outer g ts = afterTerm outer g (.comparison c) r.1 := by
  rw [term.eq_def]
  split
  · simp [comparison?, operand, bind, Except.bind] at h
  · rw [h]

/-- Reading a list of tokens as far as `rest` reads the filter `f` by a rule: as a term, as the
conjunction of a group, or as a whole group. -/
def Reads : Rule → Filter → List Lexeme → List Lexeme → Prop
  | .comparison, f, ts, rest => ∀ outer g, term outer g ts = afterTerm outer g f rest
  | .conjunction, f, ts, rest => ∃ c t, (∀ a, Group.conjunction ⟨a, c⟩ t = f) ∧
    ∀ outer a, term outer ⟨a, none⟩ ts = afterTerm outer ⟨a, c⟩ t rest
  | .filter, f, ts, rest => ∃ g t, Group.filter g t = f ∧
    ∀ outer, term outer .empty ts = afterTerm outer g t rest

theorem Reads.alone {f : Filter} {ts rest : List Lexeme} (h : Reads .conjunction f ts rest) :
    Reads .filter f ts rest := by
  obtain ⟨c, t, hc, h⟩ := h
  exact ⟨⟨none, c⟩, t, hc none, fun outer => h outer none⟩

theorem Reads.single {f : Filter} {ts rest : List Lexeme} (h : Reads .comparison f ts rest) :
    Reads .conjunction f ts rest :=
  ⟨none, f, fun _ => rfl, fun outer a => h outer ⟨a, none⟩⟩

section

variable {t : Lexeme} {f g : Filter} {ts mid rest : List Lexeme}

theorem term_openParen (ht : t.token = .openParen) (outer : List Group) (g : Group) :
    term outer g (t :: ts) = term (g :: outer) .empty ts := by
  obtain ⟨n, text, _⟩ := t
  cases ht
  rw [term.eq_def]

theorem afterTerm_and (ht : t.token = .word "and") (outer : List Group) (g : Group) (f : Filter) :
    afterTerm outer g f (t :: ts) = term outer (g.and f) ts := by
  obtain ⟨n, text, _⟩ := t
  cases ht
  rw [afterTerm.eq_def]
  simp only

theorem afterTerm_or (ht : t.token = .word "or") (outer : List Group) (g : Group) (f : Filter) :
    afterTerm outer g f (t :: ts) = term outer (g.or f) ts := by
  obtain ⟨n, text, _⟩ := t
  cases ht
  rw [afterTerm.eq_def]
  simp only

theorem afterTerm_closeParen (ht : t.token = .closeParen) (outer : List Group) (g g' : Group)
    (f : Filter) : afterTerm (g' :: outer) g f (t :: ts) = afterTerm outer g' (g.filter f) ts := by
  obtain ⟨n, text, _⟩ := t
  cases ht
  rw [afterTerm.eq_def]

/-- After a filter and `or` the reading goes on in the same group. -/
theorem Reads.term_or (h : Reads .filter f ts (t :: mid)) (ht : t.token = .word "or")
    (outer : List Group) : term outer .empty ts = term outer ⟨some f, none⟩ mid := by
  obtain ⟨g, t, hf, h⟩ := h
  rw [h, afterTerm_or ht, Group.or, hf]

theorem Reads.term_and (h : Reads .conjunction f ts (t :: mid)) (ht : t.token = .word "and")
    (outer : List Group) (a : Option Filter) :
    term outer ⟨a, none⟩ ts = term outer ⟨a, some f⟩ mid := by
  obtain ⟨c, t, hf, h⟩ := h
  rw [h, afterTerm_and ht, Group.and, hf]

theorem Reads.or (hf : Reads .filter f ts (t :: mid)) (ht : t.token = .word "or")
    (hg : Reads .conjunction g mid rest) : Reads .filter (.or f g) ts rest := by
  obtain ⟨c, t, hc, h⟩ := hg
  refine ⟨⟨some f, c⟩, t, congrArg (Filter.or f) (hc _), fun outer => ?_⟩
  rw [hf.term_or ht]
  exact h outer _

theorem Reads.and (hf : Reads .conjunction f ts (t :: mid)) (ht : t.token = .word "and")
    (hg : Reads .comparison g mid rest) : Reads .conjunction (.and f g) ts rest := by
  refine ⟨some f, g, fun a => rfl, fun outer a => ?_⟩
  rw [hf.term_and ht]
  exact hg outer _

theorem Reads.parenthesized {t' : Lexeme} (h : Reads .filter f ts (t' :: rest))
    (ht : t.token = .openParen) (ht' : t'.token = .closeParen) :
    Reads .comparison f (t :: ts) rest := by
  obtain ⟨g, t, hf, h⟩ := h
  intro outer g'
  rw [term_openParen ht, h, afterTerm_closeParen ht', hf]

end

/-- Tokens that spell a filter are read as that filter, whatever comes after them but a bracket. -/
theorem Spells.reads {rule : Rule} {us : List Token} {f : Filter} (h : Spells rule us f) :
    ∀ {ts : List Lexeme} {vs : List Token}, tokens ts = us ++ vs → NoBracket vs →
      ∃ rest, tokens rest = vs ∧ Reads rule f ts rest := by
  induction h with
  | alone _ ih =>
    intro ts vs hts hv
    obtain ⟨rest, hrest, h⟩ := ih hts hv
    exact ⟨rest, hrest, h.alone⟩
  | single _ ih =>
    intro ts vs hts hv
    obtain ⟨rest, hrest, h⟩ := ih hts hv
    exact ⟨rest, hrest, h.single⟩
  | or _ _ ihf ihg =>
    intro ts vs hts hv
    rw [List.append_assoc, List.cons_append] at hts
    obtain ⟨_, hmid, h⟩ := ihf hts (by simp [NoBracket])
    obtain ⟨_, _, mid, rfl, hmid'⟩ := tokens_eq_cons hmid
    obtain ⟨rest, hrest, h'⟩ := ihg hmid' hv
    exact ⟨rest, hrest, h.or rfl h'⟩
  | and _ _ ihf ihg =>
    intro ts vs hts hv
    rw [List.append_assoc, List.cons_append] at hts
    obtain ⟨_, hmid, h⟩ := ihf hts (by simp [NoBracket])
    obtain ⟨_, _, mid, rfl, hmid'⟩ := tokens_eq_cons hmid
    obtain ⟨rest, hrest, h'⟩ := ihg hmid' hv
    exact ⟨rest, hrest, h.and rfl h'⟩
  | parenthesized _ ih =>
    intro ts vs hts hv
    rw [List.cons_append, List.append_assoc] at hts
    obtain ⟨_, _, inner, rfl, hinner⟩ := tokens_eq_cons hts
    obtain ⟨_, hmid, h⟩ := ih hinner (by simp [NoBracket])
    obtain ⟨_, _, rest, rfl, hrest⟩ := tokens_eq_cons hmid
    exact ⟨rest, hrest, h.parenthesized rfl rfl⟩
  | attributeFirst o ha hl =>
    intro ts vs hts hv
    rw [List.append_assoc, List.cons_append] at hts
    obtain ⟨r, hr, hrest⟩ := comparison?_of_spells
      (c := ⟨.attribute _, o, .literal _⟩) rfl (.attribute ha) (.literal hl) hv hts
    exact ⟨r.1, hrest, term_comparison hr⟩
  | literalFirst o hl ha =>
    intro ts vs hts hv
    rw [List.append_assoc, List.cons_append] at hts
    obtain ⟨r, hr, hrest⟩ := comparison?_of_spells
      (c := ⟨.literal _, o, .attribute _⟩) rfl (.literal hl) (.attribute ha) hv hts
    exact ⟨r.1, hrest, term_comparison hr⟩

end Completeness

/-- A list of tokens is read as the filter that it spells, and as no other. -/
theorem ofLexemes_ok_iff {ts : List Lexeme} {f : Filter} :
    ofLexemes ts = .ok f ↔ Spells .filter (tokens ts) f := by
  constructor
  · intro h
    simpa using term_spells h .nil groupReads_empty
  · intro h
    obtain ⟨rest, hrest, g, t, hf, hread⟩ := h.reads (List.append_nil _).symm (by simp [NoBracket])
    obtain rfl : rest = [] := List.map_eq_nil_iff.1 hrest
    rw [ofLexemes, hread, afterTerm.eq_def]
    simp [hf]

/-- A text is read as a filter exactly if it can be cut into tokens that spell the filter. -/
theorem parse_ok_iff {text : String} {f : Filter} :
    parse text = .ok f ↔ ∃ ts, lex text = .ok ts ∧ Spells .filter (tokens ts) f := by
  unfold parse
  rcases lex text with e | ts
  · simp [bind, Except.bind]
  · simpa [bind, Except.bind] using ofLexemes_ok_iff

end Cimi.Filter
