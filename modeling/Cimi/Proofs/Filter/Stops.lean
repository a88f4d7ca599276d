import Cimi.Proofs.Filter.Outline

/-!
# Where the reading of a comparison stops

A side is read, or the reading is stuck at a token that is not expected, or its value is out of range
(`operandEnds`).  So it is with a comparison, whose sides can also be of one kind (`comparisonEnds`).
In each case what comes before makes an outline with more tokens.

The reading looks at one token more than it takes, for the word `property` is a name unless a bracket
comes next.  So `Takes` and `Sticks` speak of all lists whose rest begins in the same way.
-/

namespace Cimi.Filter

/-- Tokens whose value is out of range, and the error that says so. -/
@[mk_iff]
inductive Token.Invalid : Token → Error → Prop
  | int {digits : String} (h : maxInt < Text.Decimal.value digits.toList) :
    Invalid (.int digits) (.integerOutOfRange digits)
  | date {text : String} {reason : DateError} (h : Instant.ofText text.toList = .error reason) :
    Invalid (.date text) (.invalidDate text reason)

/-! ## Readers that look one token ahead -/

section

variable {α : Type} {β : List Lexeme → Type}

/-- A reader takes `us` before any list that begins as `rest`. -/
def Takes (read : (ts : List Lexeme) → Except Error (α × Remaining ts)) (us rest : List Lexeme)
    (x : α) : Prop :=
  ∀ rest', rest'.head? = rest.head? → ∃ hlt, read (us ++ rest') = .ok (x, ⟨rest', hlt⟩)

/-- A reader fails behind `us` before any list that begins as `rest`. -/
def Sticks (read : (ts : List Lexeme) → Except Error (β ts)) (us rest : List Lexeme)
    (e : Error) : Prop :=
  ∀ rest', rest'.head? = rest.head? → read (us ++ rest') = .error e

theorem takes_of_all {read : (ts : List Lexeme) → Except Error (α × Remaining ts)}
    {us rest : List Lexeme} {x : α} (h : ∀ rest', ∃ hlt, read (us ++ rest') = .ok (x, ⟨rest', hlt⟩)) :
    Takes read us rest x :=
  fun rest' _ => h rest'

theorem sticks_nil {read : (ts : List Lexeme) → Except Error (β ts)} {us : List Lexeme} {e : Error}
    (h : read us = .error e) : Sticks read us [] e := by
  intro rest' hrest
  rw [List.head?_eq_none_iff.1 hrest, List.append_nil]
  exact h

theorem sticks_cons {read : (ts : List Lexeme) → Except Error (β ts)} {us rest : List Lexeme}
    {t : Lexeme} {e : Error} (h : ∀ rest', read (us ++ t :: rest') = .error e) :
    Sticks read us (t :: rest) e := by
  intro rest' hrest
  obtain ⟨rest', rfl⟩ := List.head?_eq_some_iff.1 hrest
  exact h rest'

end

theorem propertyKey_cases (ts : List Lexeme) :
    (∃ us rest key, ts = us ++ rest ∧ tokens us = [.string key, .closeBracket] ∧
      Takes propertyKey us rest key) ∨
    ∃ us rest x vs key, ts = us ++ rest ∧ tokens us ++ vs = [.string key, .closeBracket] ∧
      Sticks propertyKey us rest (.unexpected x rest) := by
  rcases ts with _ | ⟨⟨n, text, token⟩, ts⟩
  · exact .inr ⟨[], [], .propertyKey, _, "", rfl, rfl, sticks_nil rfl⟩
  by_cases hs : ∃ key, token = .string key
  · obtain ⟨key, rfl⟩ := hs
    rcases ts with _ | ⟨⟨m, text', token⟩, rest⟩
    · exact .inr ⟨[_], [], .closeBracket, [.closeBracket], key, rfl, rfl, sticks_nil rfl⟩
    by_cases hc : token = .closeBracket
    · subst hc
      exact .inl ⟨[_, _], rest, key, rfl, rfl, takes_of_all fun rest' => ⟨_, rfl⟩⟩
    · refine .inr ⟨[_], _, .closeBracket, [.closeBracket], key, rfl, rfl, sticks_cons fun rest' => ?_⟩
      cases token <;> first | rfl | exact absurd rfl hc
  · refine .inr ⟨[], _, .propertyKey, _, "", rfl, rfl, sticks_cons fun rest' => ?_⟩
    cases token <;> first | rfl | exact absurd ⟨_, rfl⟩ hs

/-- How the reading of a side ends. -/
inductive OperandEnds : List Lexeme → Prop
  | takes {us rest : List Lexeme} {o : Operand} (hs : SpellsOperand (tokens us) o)
    (h : Takes operand us rest o) : OperandEnds (us ++ rest)
  | sticks {us rest : List Lexeme} {vs : List Token} {side : Side} (x : Expected)
    (hs : OutlinesSide (tokens us ++ vs) side) (h : Sticks operand us rest (.unexpected x rest)) :
    OperandEnds (us ++ rest)
  | invalid {t : Lexeme} {rest : List Lexeme} {e : Error} (ht : t.token.Invalid e)
    (h : operand (t :: rest) = .error e) : OperandEnds (t :: rest)

theorem OperandEnds.one {t : Lexeme} {rest : List Lexeme} {o : Operand}
    (hs : SpellsOperand [t.token] o) (h : Takes operand [t] rest o) : OperandEnds (t :: rest) :=
  @takes [t] rest o hs h

theorem OperandEnds.none {ts : List Lexeme} (h : Sticks operand [] ts (.unexpected .operand ts)) :
    OperandEnds ts :=
  @sticks [] ts [.string ""] .literal .operand (.string "") h

section

variable {n : Nat} {text : List Char} {name : String} {rest : List Lexeme}

theorem bracket?_eq_none (h : ∀ t, rest.head? = some t → t.token ≠ .openBracket) :
    bracket? rest = none := by
  unfold bracket?
  split
  · exact absurd rfl (h _ rfl)
  · rfl

theorem operand_name (hname : name ∉ reservedWords)
    (hb : name = "property" → bracket? rest = none) :
    operand (⟨n, text, .word name⟩ :: rest) =
      .ok (.attribute (.name name), ⟨rest, Nat.lt_succ_self _⟩) := by
  simp only [reservedWords, List.mem_cons, List.not_mem_nil, or_false, not_or] at hname
  by_cases hp : name = "property"
  · subst hp
    simp [operand, hb rfl]
  · simp [operand, hname, hp]

theorem operandEnds_property {m : Nat} {text' : List Char} (inner : List Lexeme) :
    OperandEnds (⟨n, text, .word "property"⟩ :: ⟨m, text', .openBracket⟩ :: inner) := by
  rcases propertyKey_cases inner with ⟨us, rest, key, rfl, hus, hkey⟩ |
    ⟨us, rest, x, vs, key, rfl, hus, hkey⟩
  · rw [← List.cons_append, ← List.cons_append]
    refine .takes (o := .attribute (.property key)) ?_ fun rest' hrest => ?_
    · rw [tokens_cons, tokens_cons, hus]
      exact .attribute (.property key)
    · obtain ⟨hlt, hr⟩ := hkey rest' hrest
      simp [operand, bracket?, hr, Except.map]
      omega
  · have hside := OutlinesSide.attribute (.property key)
    rw [← hus] at hside
    rw [← List.cons_append, ← List.cons_append]
    refine .sticks x hside fun rest' hrest => ?_
    simp [operand, bracket?, hkey rest' hrest, Except.map]

end

theorem operandEnds (ts : List Lexeme) : OperandEnds ts := by
  rcases ts with _ | ⟨⟨n, text, token⟩, rest⟩
  · exact .none (sticks_nil rfl)
  cases token with
  | string s => exact .one (.literal (.string s)) (takes_of_all fun _ => ⟨_, rfl⟩)
  | int digits =>
    by_cases hle : Text.Decimal.value digits.toList ≤ maxInt
    · refine .one (.literal (.int hle)) (takes_of_all fun rest' => ?_)
      exact ⟨Nat.lt_succ_self _, by simp [operand, intOfDigits, hle, Except.map]⟩
    · refine .invalid (.int (Nat.lt_of_not_le hle)) ?_
      simp [operand, intOfDigits, hle, Except.map]
  | date text' =>
    rcases hi : Instant.ofText text'.toList with reason | i
    · refine .invalid (.date hi) ?_
      simp [operand, instantOfText, hi, Except.map, Except.mapError]
    · refine .one (.literal (.date hi)) (takes_of_all fun rest' => ?_)
      refine ⟨Nat.lt_succ_self _, ?_⟩
      simp [operand, instantOfText, hi, Except.map, Except.mapError]
  | word name =>
    by_cases htrue : name = "true"
    · subst htrue
      exact .one (.literal .yes) (takes_of_all fun _ => ⟨_, rfl⟩)
    by_cases hfalse : name = "false"
    · subst hfalse
      exact .one (.literal .no) (takes_of_all fun _ => ⟨_, rfl⟩)
    by_cases hjoin : name = "and" ∨ name = "or"
    · refine .none (sticks_cons fun rest' => ?_)
      rcases hjoin with rfl | rfl <;> rfl
    · have hname : name ∉ reservedWords := by simpa [reservedWords, htrue, hfalse] using hjoin
      by_cases hb : name = "property" ∧ ∃ m text' inner, rest = ⟨m, text', .openBracket⟩ :: inner
      · obtain ⟨rfl, m, text', inner, rfl⟩ := hb
        exact operandEnds_property inner
      · refine .one (.attribute (.name hname)) fun rest' hrest => ?_
        refine ⟨_, operand_name hname fun hp => ?_⟩
        refine bracket?_eq_none fun t ht ht' => hb ⟨hp, ?_⟩
        obtain ⟨inner, rfl⟩ := List.head?_eq_some_iff.1 (hrest ▸ ht)
        obtain ⟨m, text', token⟩ := t
        cases ht'
        exact ⟨m, text', inner, rfl⟩
  | _ => exact .none (sticks_cons fun _ => rfl)

/-! ## Values -/

/-- None of the tokens has a value that is out of range. -/
def Valid (ts : List Token) : Prop := ∀ t ∈ ts, ∀ e, ¬t.Invalid e

@[simp] theorem valid_nil : Valid [] := by simp [Valid]

@[simp] theorem valid_cons {t : Token} {ts : List Token} :
    Valid (t :: ts) ↔ (∀ e, ¬t.Invalid e) ∧ Valid ts := by
  simp [Valid]

@[simp] theorem valid_append {ts us : List Token} : Valid (ts ++ us) ↔ Valid ts ∧ Valid us := by
  simp [Valid, or_imp, forall_and]

theorem SpellsAttribute.valid {ts : List Token} {a : Attribute} (h : SpellsAttribute ts a) :
    Valid ts := by
  cases h <;> simp [Token.invalid_iff]

theorem SpellsLiteral.valid {ts : List Token} {l : Literal} (h : SpellsLiteral ts l) :
    Valid ts := by
  cases h with
  | int hle =>
    rw [valid_cons]
    exact ⟨fun e he => by cases he; omega, valid_nil⟩
  | date hi =>
    rw [valid_cons]
    refine ⟨fun e he => ?_, valid_nil⟩
    cases he with
    | date he => rw [hi] at he; cases he
  | _ => simp [Token.invalid_iff]

theorem SpellsOperand.valid {ts : List Token} {o : Operand} (h : SpellsOperand ts o) :
    Valid ts := by
  rcases h with ha | hl
  · exact ha.valid
  · exact hl.valid

theorem Spells.valid {rule : Rule} {ts : List Token} {f : Filter} (h : Spells rule ts f) :
    Valid ts := by
  induction h with
  | alone _ ih => exact ih
  | single _ ih => exact ih
  | or _ _ ihf ihg => simp [ihf, ihg, Token.invalid_iff]
  | and _ _ ihf ihg => simp [ihf, ihg, Token.invalid_iff]
  | parenthesized _ ih => simp [ih, Token.invalid_iff]
  | attributeFirst o ha hl => simp [ha.valid, hl.valid, Token.invalid_iff]
  | literalFirst o hl ha => simp [ha.valid, hl.valid, Token.invalid_iff]

theorem Joined.valid {rule : Rule} {word : String} {joined : Option Filter} {us : List Token}
    (h : Joined rule word joined us) : Valid us := by
  cases h with
  | none => simp
  | some h => simp [h.valid, Token.invalid_iff]

theorem GroupReads.valid {g : Group} {us : List Token} (h : GroupReads g us) : Valid us := by
  obtain ⟨ha, hc⟩ := h
  simp [ha.valid, hc.valid]

theorem OuterReads.valid {outer : List Group} {us : List Token} (h : OuterReads outer us) :
    Valid us := by
  induction h with
  | nil => simp
  | cons _ hg ih => simp [ih, hg.valid, Token.invalid_iff]

/-! ## Comparisons -/

theorem operator_cons {t : Lexeme} {o : Op} (h : t.token = .op o) (ts : List Lexeme) :
    operator (t :: ts) = .ok (o, ⟨ts, Nat.lt_succ_self _⟩) := by
  obtain ⟨n, text, token⟩ := t
  cases h
  rfl

theorem operator_cases (ts : List Lexeme) :
    (∃ t rest o, ts = t :: rest ∧ t.token = .op o) ∨
      Sticks operator [] ts (.unexpected .operator ts) := by
  rcases ts with _ | ⟨⟨n, text, token⟩, rest⟩
  · exact .inr (sticks_nil rfl)
  · cases token with
    | op o => exact .inl ⟨_, rest, o, rfl, rfl⟩
    | _ => exact .inr (sticks_cons fun _ => rfl)

section

variable {ts rest us : List Lexeme} {t : Lexeme} {left right : Operand} {o : Op}
  {r : Remaining ts} {e : Error}

theorem comparison?_of_left (h : operand ts = .error e) : comparison? ts = .error e := by
  simp only [comparison?, bind, Except.bind, h]

theorem comparison?_of_operator (hl : operand ts = .ok (left, r)) (h : operator r.1 = .error e) :
    comparison? ts = .error e := by
  simp only [comparison?, bind, Except.bind, hl, h]

theorem comparison?_of_right (hl : Takes operand us (t :: ts) left) (ho : t.token = .op o)
    (h : operand ts = .error e) : comparison? (us ++ t :: ts) = .error e := by
  obtain ⟨_, hl⟩ := hl (t :: ts) rfl
  simp only [comparison?, bind, Except.bind, hl, operator_cons ho, h]

theorem comparison?_of_sides (hl : Takes operand us (t :: ts) left) (ho : t.token = .op o)
    {hlt : rest.length < ts.length} (h : operand ts = .ok (right, ⟨rest, hlt⟩)) :
    ∃ hlt', comparison? (us ++ t :: ts) =
      if Comparison.isMixed ⟨left, o, right⟩ then .ok (⟨left, o, right⟩, ⟨rest, hlt'⟩)
      else .error (.noSingleAttribute (((us ++ t :: ts).head?.map (·.start)).getD 0)) := by
  obtain ⟨_, hl⟩ := hl (t :: ts) rfl
  refine ⟨by simp only [List.length_append, List.length_cons]; omega, ?_⟩
  simp only [comparison?, bind, Except.bind, hl, operator_cons ho, h]
  rfl

end

theorem Comparison.isMixed_iff (c : Comparison) : c.isMixed = true ↔ c.left.side ≠ c.right.side := by
  obtain ⟨left, o, right⟩ := c
  rcases left with a | l <;> rcases right with a' | l' <;> simp [isMixed, Operand.side]

/-- How the reading of a comparison ends. -/
inductive ComparisonEnds : List Lexeme → Prop
  | takes {us rest : List Lexeme} {c : Comparison}
    (hs : Spells .comparison (tokens us) (.comparison c)) (h : Takes comparison? us rest c) :
    ComparisonEnds (us ++ rest)
  | sticks {us rest : List Lexeme} {vs : List Token} {ps : List Place} (x : Expected)
    (hs : Outline .comparison (tokens us ++ vs) ps)
    (h : Sticks comparison? us rest (.unexpected x rest)) : ComparisonEnds (us ++ rest)
  | invalid {us rest : List Lexeme} {t : Lexeme} {vs : List Token} {left right : Side} {e : Error}
    (hvalid : Valid (tokens us)) (ht : t.token.Invalid e)
    (hs : Outline .comparison (tokens us ++ t.token :: vs)
      [⟨0, (tokens us ++ t.token :: vs).length, left, right⟩])
    (h : comparison? (us ++ t :: rest) = .error e) : ComparisonEnds (us ++ t :: rest)
  | unmixed {us rest : List Lexeme} {t : Lexeme} {side : Side} (ht : us.head? = some t)
    (hs : Outline .comparison (tokens us) [⟨0, (tokens us).length, side, side⟩])
    (h : comparison? (us ++ rest) = .error (.noSingleAttribute t.start)) :
    ComparisonEnds (us ++ rest)

theorem Token.Invalid.outlinesSide {t : Token} {e : Error} (h : t.Invalid e) :
    OutlinesSide [t] .literal := by
  cases h with
  | int => exact .int _
  | date => exact .date _

theorem SpellsOperand.exists_cons {us : List Lexeme} {o : Operand}
    (h : SpellsOperand (tokens us) o) : ∃ t us', us = t :: us' := by
  rcases us with _ | ⟨t, us'⟩
  · rw [tokens_nil] at h
    rcases h with ⟨⟨⟩⟩ | ⟨⟨⟩⟩
  · exact ⟨t, us', rfl⟩

/-- After a side and an operator all depends on the side that comes next. -/
theorem comparisonEnds_right {us ts : List Lexeme} {t : Lexeme} {left : Operand} {o : Op}
    (hl : SpellsOperand (tokens us) left) (hleft : ∀ ts, Takes operand us (t :: ts) left)
    (ho : t.token = .op o) : ComparisonEnds (us ++ t :: ts) := by
  have hsplit (vs rest : List Lexeme) : us ++ t :: (vs ++ rest) = (us ++ t :: vs) ++ rest := by
    simp
  have htokens (vs : List Lexeme) : tokens us ++ .op o :: tokens vs = tokens (us ++ t :: vs) := by
    simp [ho]
  rcases operandEnds ts with @⟨vs, rest, right, hr, hright⟩ | @⟨vs, rest, ws, side, x, hr, hright⟩ |
    @⟨t', rest, e, ht', hright⟩
  · rw [hsplit]
    by_cases hm : Comparison.isMixed ⟨left, o, right⟩
    · have hspells := spells_of_isMixed hm hl hr
      rw [htokens] at hspells
      refine .takes hspells fun rest' hrest => ?_
      obtain ⟨_, hr'⟩ := hright rest' hrest
      obtain ⟨hlt, hc⟩ := comparison?_of_sides (hleft _) ho hr'
      rw [if_pos hm] at hc
      rw [← hsplit]
      exact ⟨hlt, hc⟩
    · have houtline := Outline.comparison o hl.outlinesSide hr.outlinesSide
      have hside : left.side = right.side := by
        by_contra hne
        exact hm ((Comparison.isMixed_iff _).2 hne)
      rw [hside, htokens] at houtline
      obtain ⟨_, hr'⟩ := hright rest rfl
      obtain ⟨hlt, hc⟩ := comparison?_of_sides (hleft _) ho hr'
      rw [if_neg hm, hsplit] at hc
      obtain ⟨t', us', rfl⟩ := hl.exists_cons
      exact .unmixed rfl houtline hc
  · have houtline := Outline.comparison o hl.outlinesSide hr
    rw [← List.cons_append, ← List.append_assoc, htokens] at houtline
    rw [hsplit]
    refine .sticks x houtline fun rest' hrest => ?_
    rw [← hsplit]
    exact comparison?_of_right (hleft _) ho (hright rest' hrest)
  · have houtline := Outline.comparison o hl.outlinesSide ht'.outlinesSide
    have hc := comparison?_of_right (hleft _) ho hright
    have hone : [Token.op o] = tokens [t] := by simp [ho]
    rw [← List.singleton_append, ← List.append_assoc] at houtline hc ⊢
    rw [hone, ← tokens_append] at houtline
    exact .invalid (by simp [hl.valid, ho, Token.invalid_iff]) ht' houtline hc

theorem comparisonEnds (ts : List Lexeme) : ComparisonEnds ts := by
  rcases operandEnds ts with @⟨us, ts, left, hl, hleft⟩ | @⟨us, rest, vs, side, x, hl, hleft⟩ |
    @⟨t, rest, e, ht, hleft⟩
  · rcases operator_cases ts with ⟨t, ts, o, rfl, ho⟩ | ho
    · exact comparisonEnds_right hl (fun ts' rest' hrest => hleft rest' (by rw [hrest]; rfl)) ho
    · have hside := Outline.comparison .eq hl.outlinesSide (.string "")
      refine .sticks .operator hside fun rest' hrest => ?_
      obtain ⟨hlt, hr⟩ := hleft rest' hrest
      exact comparison?_of_operator hr (ho _ hrest)
  · have hside := Outline.comparison .eq hl (.string "")
    rw [List.append_assoc] at hside
    exact .sticks x hside fun rest' hrest => comparison?_of_left (hleft rest' hrest)
  · rw [← List.nil_append (t :: rest)]
    exact .invalid valid_nil ht (.comparison .eq ht.outlinesSide (.string ""))
      (comparison?_of_left hleft)

end Cimi.Filter
