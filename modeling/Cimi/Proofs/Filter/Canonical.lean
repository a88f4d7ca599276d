import Cimi.Proofs.Filter.Cut
import Cimi.Proofs.Filter.Nesting

/-!
# Canonical texts are read back

The text of a well-formed filter is cut into the tokens that the filter is written with
(`cuts_write`), and these spell the filter with its chains nested to the left (`spells_spelling`).
So the canonical text is read as that filter (`parse_canonical`), which has the same text again.
What is read from any text is well-formed (`wellFormed_of_spells`), since its tokens are.
-/

namespace Cimi.Filter

/-! ## Well-formed filters -/

/-- A name is an identifier that is not reserved; the key of a property is any text. -/
def Attribute.WellFormed : Attribute → Prop
  | .name n => isIdentifier n.toList = true ∧ n ∉ reservedWords
  | .property _ => True

/-- An integer is in range, and a date has the form of one and the instant of its text. -/
def Literal.WellFormed : Literal → Prop
  | .int n => n ≤ maxInt
  | .date text instant => isDateLexeme text.toList = true ∧ Instant.ofText text.toList = .ok instant
  | .bool _ => True
  | .string _ => True

/-- A side of a comparison is well-formed as the attribute or literal that it is. -/
def Operand.WellFormed : Operand → Prop
  | .attribute a => a.WellFormed
  | .literal l => l.WellFormed

/-- One side is an attribute and the other a literal, both well-formed. -/
def Comparison.WellFormed (c : Comparison) : Prop :=
  match c.left, c.right with
  | .attribute a, .literal l => a.WellFormed ∧ l.WellFormed
  | .literal l, .attribute a => a.WellFormed ∧ l.WellFormed
  | _, _ => False

/-- Every comparison is well-formed. -/
def WellFormed : Filter → Prop
  | .comparison c => c.WellFormed
  | .and l r => l.WellFormed ∧ r.WellFormed
  | .or l r => l.WellFormed ∧ r.WellFormed

instance : (a : Attribute) → Decidable a.WellFormed
  | .name n => inferInstanceAs (Decidable (isIdentifier n.toList = true ∧ n ∉ reservedWords))
  | .property _ => inferInstanceAs (Decidable True)

instance : (l : Literal) → Decidable l.WellFormed
  | .int n => inferInstanceAs (Decidable (n ≤ maxInt))
  | .date text i =>
    inferInstanceAs
      (Decidable (isDateLexeme text.toList = true ∧ Instant.ofText text.toList = .ok i))
  | .bool _ => inferInstanceAs (Decidable True)
  | .string _ => inferInstanceAs (Decidable True)

instance : (c : Comparison) → Decidable c.WellFormed
  | ⟨.attribute a, _, .literal l⟩ => inferInstanceAs (Decidable (a.WellFormed ∧ l.WellFormed))
  | ⟨.literal l, _, .attribute a⟩ => inferInstanceAs (Decidable (a.WellFormed ∧ l.WellFormed))
  | ⟨.attribute _, _, .attribute _⟩ => inferInstanceAs (Decidable False)
  | ⟨.literal _, _, .literal _⟩ => inferInstanceAs (Decidable False)

instance decidableWellFormed : (f : Filter) → Decidable f.WellFormed
  | .comparison c => inferInstanceAs (Decidable c.WellFormed)
  | .and l r =>
    have := decidableWellFormed l
    have := decidableWellFormed r
    inferInstanceAs (Decidable (l.WellFormed ∧ r.WellFormed))
  | .or l r =>
    have := decidableWellFormed l
    have := decidableWellFormed r
    inferInstanceAs (Decidable (l.WellFormed ∧ r.WellFormed))

theorem wellFormed_of_spellsAttribute {ts : List Token} {a : Attribute}
    (h : SpellsAttribute ts a) (hv : ∀ t ∈ ts, t.isValid = true) : a.WellFormed := by
  cases h with
  | name hn => exact ⟨by simpa [Token.isValid] using hv, hn⟩
  | property => trivial

theorem wellFormed_of_spellsLiteral {ts : List Token} {l : Literal} (h : SpellsLiteral ts l)
    (hv : ∀ t ∈ ts, t.isValid = true) : l.WellFormed := by
  cases h with
  | int hn => exact hn
  | date hi => exact ⟨by simpa [Token.isValid] using hv, hi⟩
  | string => trivial
  | yes => trivial
  | no => trivial

/-- What tokens of the right form spell is well-formed. -/
theorem wellFormed_of_spells {rule : Rule} {ts : List Token} {f : Filter} (h : Spells rule ts f) :
    (∀ t ∈ ts, t.isValid = true) → f.WellFormed := by
  induction h with
  | alone _ ih => exact ih
  | single _ ih => exact ih
  | or _ _ ihf ihg =>
    intro hv
    simp only [List.mem_append, List.mem_cons] at hv
    exact ⟨ihf fun t ht => hv t (.inl ht), ihg fun t ht => hv t (.inr (.inr ht))⟩
  | and _ _ ihf ihg =>
    intro hv
    simp only [List.mem_append, List.mem_cons] at hv
    exact ⟨ihf fun t ht => hv t (.inl ht), ihg fun t ht => hv t (.inr (.inr ht))⟩
  | parenthesized _ ih =>
    intro hv
    exact ih fun t ht => hv t (by simp [ht])
  | attributeFirst o ha hl =>
    intro hv
    simp only [List.mem_append, List.mem_cons] at hv
    exact ⟨wellFormed_of_spellsAttribute ha fun t ht => hv t (.inl ht),
      wellFormed_of_spellsLiteral hl fun t ht => hv t (.inr (.inr ht))⟩
  | literalFirst o hl ha =>
    intro hv
    simp only [List.mem_append, List.mem_cons] at hv
    exact ⟨wellFormed_of_spellsAttribute ha fun t ht => hv t (.inr (.inr ht)),
      wellFormed_of_spellsLiteral hl fun t ht => hv t (.inl ht)⟩

/-! ## The tokens that a filter is written with -/

/-- The tokens of an attribute. -/
def Attribute.spelling : Attribute → List Token
  | .name n => [.word n]
  | .property key => [.word "property", .openBracket, .string key, .closeBracket]

/-- The tokens of a literal. -/
def Literal.spelling : Literal → List Token
  | .int n => [.int (String.ofList (Text.Decimal.digits n))]
  | .bool true => [.word "true"]
  | .bool false => [.word "false"]
  | .string s => [.string s]
  | .date text _ => [.date text]

/-- The tokens of a side of a comparison. -/
def Operand.spelling : Operand → List Token
  | .attribute a => a.spelling
  | .literal l => l.spelling

/-- The tokens of a comparison. -/
def Comparison.spelling (c : Comparison) : List Token :=
  c.left.spelling ++ .op c.op :: c.right.spelling

/-- The tokens `ts` of a filter where it is a side of an `and`. -/
def enclosed (f : Filter) (ts : List Token) : List Token :=
  if f.isOr then .openParen :: (ts ++ [.closeParen]) else ts

/-- The tokens of a filter. -/
def spelling : Filter → List Token
  | .comparison c => c.spelling
  | .or l r => l.spelling ++ .word "or" :: r.spelling
  | .and l r => l.enclosed l.spelling ++ .word "and" :: r.enclosed r.spelling

theorem spells_attribute : ∀ {a : Attribute}, a.WellFormed → SpellsAttribute a.spelling a
  | .name _, h => .name h.2
  | .property key, _ => .property key

theorem spells_literal : ∀ {l : Literal}, l.WellFormed → SpellsLiteral l.spelling l
  | .int n, h => by
    have hv : Text.Decimal.value (String.ofList (Text.Decimal.digits n)).toList = n := by
      rw [String.toList_ofList, Text.Decimal.value_digits]
    have hle : Text.Decimal.value (String.ofList (Text.Decimal.digits n)).toList ≤ maxInt := by
      rw [hv]
      exact h
    have hs := SpellsLiteral.int hle
    rwa [hv] at hs
  | .bool true, _ => .yes
  | .bool false, _ => .no
  | .string s, _ => .string s
  | .date _ _, h => .date h.2

theorem spells_comparison : ∀ {c : Comparison}, c.WellFormed →
    Spells .comparison c.spelling (.comparison c)
  | ⟨.attribute _, o, .literal _⟩, h =>
    .attributeFirst o (spells_attribute h.1) (spells_literal h.2)
  | ⟨.literal _, o, .attribute _⟩, h =>
    .literalFirst o (spells_literal h.2) (spells_attribute h.1)

/-- The tokens of a filter spell it with its chains nested to the left, also at the end of a chain,
and so do the tokens it has as a side of an `and`. -/
structure Spelled (f : Filter) : Prop where
  filter : Spells .filter f.spelling f.leftNested
  afterOr : ∀ {ts g}, Spells .filter ts g →
    Spells .filter (ts ++ .word "or" :: f.spelling) (g.appendOr f.leftNested)
  conjunction : Spells .conjunction (f.enclosed f.spelling) f.leftNested
  afterAnd : ∀ {ts g}, Spells .conjunction ts g →
    Spells .conjunction (ts ++ .word "and" :: f.enclosed f.spelling) (g.appendAnd f.leftNested)

theorem spelled_comparison {c : Comparison} (h : c.WellFormed) : Spelled (.comparison c) where
  filter := (spells_comparison h).single.alone
  afterOr hg := hg.or (spells_comparison h).single
  conjunction := (spells_comparison h).single
  afterAnd hg := hg.and (spells_comparison h)

theorem Spelled.and {l r : Filter} (hl : Spelled l) (hr : Spelled r) : Spelled (.and l r) := by
  have h : Spells .conjunction (spelling (.and l r)) (leftNested (.and l r)) :=
    hr.afterAnd hl.conjunction
  refine ⟨h.alone, fun hg => ?_, h, fun {ts g} hg => ?_⟩
  · rw [appendOr_of_isOr _ (rotates_leftNested _).isOr_eq.symm]
    exact hg.or h
  · rw [leftNested, ← appendAnd_assoc]
    have := hr.afterAnd (hl.afterAnd hg)
    rwa [List.append_assoc, List.cons_append] at this

theorem Spelled.or {l r : Filter} (hl : Spelled l) (hr : Spelled r) : Spelled (.or l r) := by
  have h : Spells .filter (spelling (.or l r)) (leftNested (.or l r)) := hr.afterOr hl.filter
  refine ⟨h, fun {ts g} hg => ?_, h.parenthesized.single, fun hg => ?_⟩
  · rw [leftNested, ← appendOr_assoc]
    have := hr.afterOr (hl.afterOr hg)
    rwa [List.append_assoc, List.cons_append] at this
  · rw [appendAnd_of_isAnd _ (rotates_leftNested _).isAnd_eq.symm]
    exact hg.and h.parenthesized

theorem spelled : ∀ {f : Filter}, f.WellFormed → Spelled f
  | .comparison _, h => spelled_comparison h
  | .and _ _, h => (spelled h.1).and (spelled h.2)
  | .or _ _, h => (spelled h.1).or (spelled h.2)

/-! ## How a written filter is cut into tokens -/

theorem delimits_cons {c : Char} {cs : List Char} (hw : isWordChar c = false)
    (hd : isDateChar c = false) : Delimits (c :: cs) := by
  intro d hd'
  cases hd'
  exact ⟨hw, hd⟩

theorem symbol_toList (o : Op) :
    ∃ c cs, o.symbol.toList = c :: cs ∧ isWordChar c = false ∧ isDateChar c = false := by
  cases o
  case eq => exact ⟨'=', [], by decide⟩
  case ne => exact ⟨'!', ['='], by decide⟩
  case lt => exact ⟨'<', [], by decide⟩
  case le => exact ⟨'<', ['='], by decide⟩
  case gt => exact ⟨'>', [], by decide⟩
  case ge => exact ⟨'>', ['='], by decide⟩

theorem delimits_symbol (o : Op) (cs : List Char) : Delimits (o.symbol.toList ++ cs) := by
  obtain ⟨c, cs', h, hw, hd⟩ := symbol_toList o
  rw [h]
  exact delimits_cons hw hd

theorem write_property (key : String) (rest : List Char) :
    (Attribute.property key).write ++ rest =
      "property".toList ++ '[' :: (quote key ++ ']' :: rest) := by
  have h : "property[".toList = "property".toList ++ ['['] := by decide
  unfold Attribute.write
  rw [h]
  -- the characters of a text that is known are not to be computed
  generalize "property".toList = word
  simp

theorem Attribute.cuts_write {a : Attribute} {rest : List Char} {ts : List Token}
    (ha : a.WellFormed) (hr : Delimits rest) (h : Cuts rest ts) :
    Cuts (a.write ++ rest) (a.spelling ++ ts) := by
  rcases a with n | key
  · exact h.word ha.1 hr
  · have hclose : Cuts (']' :: rest) (.closeBracket :: ts) :=
      h.token (by decide) fun _ => ⟨_, rfl, rfl, rfl⟩
    have hopen : Cuts ('[' :: (quote key ++ ']' :: rest))
        (.openBracket :: .string key :: .closeBracket :: ts) :=
      hclose.quote.token (by decide) fun _ => ⟨_, rfl, rfl, rfl⟩
    have hword : isIdentifier "property".toList = true := by decide
    rw [write_property]
    exact hopen.word hword (delimits_cons (by decide) (by decide))

theorem all_isDigit_digits (n : Nat) : (Text.Decimal.digits n).all Char.isDigit = true :=
  List.all_eq_true.2 fun _ => Text.Decimal.isDigit_of_mem_digits

theorem isNumeral_digits (n : Nat) : isNumeral (Text.Decimal.digits n) = true :=
  isNumeral_of_isDigit Nat.toDigits_ne_nil (all_isDigit_digits n)

theorem Literal.cuts_write {l : Literal} {rest : List Char} {ts : List Token}
    (hl : l.WellFormed) (hr : Delimits rest) (h : Cuts rest ts) :
    Cuts (l.write ++ rest) (l.spelling ++ ts) := by
  rcases l with n | (_ | _) | s | ⟨text, i⟩
  · have hn : numeral (Text.Decimal.digits n) = .int (String.ofList (Text.Decimal.digits n)) :=
      if_pos (all_isDigit_digits n)
    rw [Literal.spelling, ← hn]
    exact h.numeral (isNumeral_digits n) hr
  · exact h.word ((by decide)) hr
  · exact h.word ((by decide)) hr
  · exact h.quote
  · have hd := hl.1
    simp only [isDateLexeme, Bool.and_eq_true, Bool.not_eq_true'] at hd
    have := h.numeral hd.1 hr
    rwa [numeral, if_neg (by simp [hd.2]), String.ofList_toList] at this

theorem Operand.cuts_write {o : Operand} {rest : List Char} {ts : List Token}
    (ho : o.WellFormed) (hr : Delimits rest) (h : Cuts rest ts) :
    Cuts (o.write ++ rest) (o.spelling ++ ts) := by
  rcases o with a | l
  · exact a.cuts_write ho hr h
  · exact l.cuts_write ho hr h

theorem head_of_isIdentifier {rest : List Char} :
    ∀ {cs : List Char}, isIdentifier cs = true → (cs ++ rest).head? ≠ some '='
  | c :: cs, h => by
    simp only [isIdentifier, Bool.and_eq_true] at h
    rintro ⟨⟩
    exact absurd h.1 (by decide)

theorem head_of_isNumeral {rest : List Char} :
    ∀ {cs : List Char}, isNumeral cs = true → (cs ++ rest).head? ≠ some '='
  | c :: cs, h => by
    simp only [isNumeral, Bool.and_eq_true] at h
    rintro ⟨⟩
    exact absurd h.1 (by decide)

/-- An operand does not begin with an equals sign, so it does not lengthen an operator before it. -/
theorem Attribute.head_write {a : Attribute} (ha : a.WellFormed) (rest : List Char) :
    (a.write ++ rest).head? ≠ some '=' := by
  rcases a with n | key
  · exact head_of_isIdentifier ha.1
  · have h : "property".toList.head? = some 'p' := by decide
    rw [write_property, List.head?_append, h]
    simp

theorem Literal.head_write {l : Literal} (hl : l.WellFormed) (rest : List Char) :
    (l.write ++ rest).head? ≠ some '=' := by
  rcases l with n | (_ | _) | s | ⟨text, i⟩
  · exact head_of_isNumeral (isNumeral_digits n)
  · have h : (Literal.bool false).write.head? = some 'f' := by decide
    rw [List.head?_append, h]
    simp
  · have h : (Literal.bool true).write.head? = some 't' := by decide
    rw [List.head?_append, h]
    simp
  · simp [Literal.write, quote]
  · have ht := hl.1
    simp only [isDateLexeme, Bool.and_eq_true] at ht
    exact head_of_isNumeral ht.1

theorem Operand.head_write {o : Operand} (ho : o.WellFormed) (rest : List Char) :
    (o.write ++ rest).head? ≠ some '=' := by
  rcases o with a | l
  · exact a.head_write ho rest
  · exact l.head_write ho rest

theorem Comparison.WellFormed.sides : ∀ {c : Comparison}, c.WellFormed →
    c.left.WellFormed ∧ c.right.WellFormed
  | ⟨.attribute _, _, .literal _⟩, h => h
  | ⟨.literal _, _, .attribute _⟩, h => h.symm

theorem Comparison.cuts_write {c : Comparison} {rest : List Char} {ts : List Token}
    (hc : c.WellFormed) (hr : Delimits rest) (h : Cuts rest ts) :
    Cuts (c.write ++ rest) (c.spelling ++ ts) := by
  have hright := c.right.cuts_write hc.sides.2 hr h
  have hop := hright.op c.op (Operand.head_write hc.sides.2 rest)
  have hleft := c.left.cuts_write hc.sides.1 (delimits_symbol _ _) hop
  simpa only [Comparison.write, Comparison.spelling, List.append_assoc, List.cons_append]
    using hleft

theorem delimits_close (rest : List Char) : Delimits (')' :: rest) :=
  delimits_cons (by decide) (by decide)

/-- A joining word between spaces is one token. -/
theorem Cuts.joiner {word : String} {rest : List Char} {ts : List Token} (h : Cuts rest ts)
    (hw : isIdentifier word.toList = true) :
    Cuts (' ' :: (word.toList ++ ' ' :: rest)) (.word word :: ts) :=
  ((h.blank (by decide)).word hw (delimits_cons (by decide) (by decide))).blank (by decide)

theorem write_and (l r : Filter) (rest : List Char) : (Filter.and l r).write ++ rest =
    l.parenthesized l.write ++
      ' ' :: ("and".toList ++ ' ' :: (r.parenthesized r.write ++ rest)) := by
  have h : " and ".toList = ' ' :: ("and".toList ++ [' ']) := by decide
  change (l.parenthesized l.write ++ " and ".toList ++ r.parenthesized r.write) ++ rest = _
  rw [h]
  generalize "and".toList = word
  simp

theorem write_or (l r : Filter) (rest : List Char) : (Filter.or l r).write ++ rest =
    l.write ++ ' ' :: ("or".toList ++ ' ' :: (r.write ++ rest)) := by
  have h : " or ".toList = ' ' :: ("or".toList ++ [' ']) := by decide
  change (l.write ++ " or ".toList ++ r.write) ++ rest = _
  rw [h]
  generalize "or".toList = word
  simp

/-- Parentheses around a text are tokens of their own. -/
theorem Cuts.parenthesized {f : Filter} {cs rest : List Char} {us ts : List Token}
    (hf : ∀ {rest ts}, Delimits rest → Cuts rest ts → Cuts (cs ++ rest) (us ++ ts))
    (hr : Delimits rest) (h : Cuts rest ts) :
    Cuts (f.parenthesized cs ++ rest) (f.enclosed us ++ ts) := by
  unfold Filter.parenthesized Filter.enclosed
  split_ifs
  · have hclose : Cuts (')' :: rest) (.closeParen :: ts) :=
      h.token (by decide) fun _ => ⟨_, rfl, rfl, rfl⟩
    have hopen : Cuts ('(' :: (cs ++ ')' :: rest)) (.openParen :: (us ++ .closeParen :: ts)) :=
      (hf (delimits_close rest) hclose).token (by decide) fun _ => ⟨_, rfl, rfl, rfl⟩
    simpa using hopen
  · exact hf hr h

/-- A written filter is cut into its tokens in front of anything that does not continue it. -/
theorem cuts_write : ∀ {f : Filter}, f.WellFormed → ∀ {rest : List Char} {ts : List Token},
    Delimits rest → Cuts rest ts → Cuts (f.write ++ rest) (f.spelling ++ ts)
  | .comparison _, hf, _, _, hr, h => Comparison.cuts_write hf hr h
  | .and l r, hf, rest, ts, hr, h => by
    have hright := Cuts.parenthesized (f := r) (cuts_write hf.2) hr h
    have hword : isIdentifier "and".toList = true := by decide
    have hleft := Cuts.parenthesized (f := l) (cuts_write hf.1)
      (delimits_cons (by decide) (by decide)) (hright.joiner hword)
    rw [write_and, spelling, List.append_assoc, List.cons_append]
    exact hleft
  | .or l r, hf, rest, ts, hr, h => by
    have hright := cuts_write hf.2 hr h
    have hword : isIdentifier "or".toList = true := by decide
    have hleft := cuts_write hf.1 (delimits_cons (by decide) (by decide)) (hright.joiner hword)
    rw [write_or, spelling, List.append_assoc, List.cons_append]
    exact hleft

/-- The canonical text of a well-formed filter is cut into the tokens that it is written with. -/
theorem lex_canonical {f : Filter} (hf : f.WellFormed) :
    ∃ ts, lex f.canonical = .ok ts ∧ tokens ts = f.spelling := by
  have h := cuts_write hf (fun _ h => by cases h) cuts_nil 0
  rw [List.append_nil, List.append_nil] at h
  rwa [lex, canonical, String.toList_ofList]

/-- The canonical text of a well-formed filter is read as the filter with its chains turned to the
left, which has the same text and the same meaning; and whatever is read is well-formed. -/
theorem parse_canonical :
    (∀ f : Filter, f.WellFormed →
      parse f.canonical = .ok f.leftNested ∧
      Rotates f f.leftNested ∧ f.leftNested.IsLeftNested ∧
      f.leftNested.comparisons = f.comparisons ∧
      (parse f.canonical).map canonical = .ok f.canonical ∧
      ∀ holds, f.leftNested.eval holds = f.eval holds) ∧
    ∀ (text : String) (f : Filter), parse text = .ok f → f.WellFormed := by
  refine ⟨fun f hf => ?_, fun text f h => ?_⟩
  · have hrot := rotates_leftNested f
    have hparse : parse f.canonical = .ok f.leftNested := by
      obtain ⟨ts, hlex, hts⟩ := lex_canonical hf
      exact parse_ok_iff.2 ⟨ts, hlex, hts ▸ (spelled hf).filter⟩
    refine ⟨hparse, hrot, isLeftNested_leftNested f, hrot.comparisons_eq.symm, ?_,
      fun holds => (hrot.eval_eq holds).symm⟩
    rw [hparse]
    exact congrArg Except.ok (congrArg String.ofList hrot.write_eq.symm)
  · obtain ⟨ts, hlex, hts⟩ := parse_ok_iff.1 h
    exact wellFormed_of_spells hts (isValid_of_lexFrom _ hlex)

/-- A filter with chains that nest to the right, below an `and` and below an `or`. -/
def rightChains : Filter :=
  .and (.comparison ⟨.attribute (.name "property"), .ne, .literal (.string "it's a \\")⟩)
    (.and
      (.or (.comparison ⟨.literal (.int maxInt), .ge, .attribute (.property "a'b")⟩)
        (.or (.comparison ⟨.attribute (.name "_x"), .eq, .literal (.bool false)⟩)
          (.comparison ⟨.attribute (.name "created"), .lt,
            .literal (.date "2012-01-02" ⟨1325462400, 0, 0⟩)⟩)))
      (.comparison ⟨.literal (.int 0), .le, .attribute (.name "n")⟩))

theorem parse_canonical_rightChains :
    rightChains.WellFormed ∧ parse rightChains.canonical = .ok rightChains.leftNested ∧
      rightChains.leftNested ≠ rightChains ∧ rightChains.leftNested.WellFormed := by
  have hf : rightChains.WellFormed := by decide
  have hparse := (parse_canonical.1 rightChains hf).1
  exact ⟨hf, hparse, by decide, parse_canonical.2 _ _ hparse⟩

end Cimi.Filter
