import Cimi.Proofs.Filter.Grammar
import Mathlib

/-!
# The trees of a filter

The grammar once more, as it is documented: a filter is a conjunction and any number of further
ones, each after an `or`, and a conjunction is made of comparisons in the same way.
`Derives rule ts rest f` says that the tokens `ts` as far as `rest` are the tree `f` by a rule.  The
trees of repeated members are folded from the left.  The word `property` is a name only if no bracket
comes next.

A whole list of tokens has the trees that it spells (`derives_iff_spells`).  So a text is read as
its tree, and it has no more than one (`parse_ok_iff_derives`).
-/

namespace Cimi.Filter

/-- The attribute at the start of a list of tokens, and what comes after it. -/
inductive DerivesAttribute : List Token → List Token → Attribute → Prop
  | name {n : String} {rest : List Token} (h : n ∉ reservedWords)
    (hb : n = "property" → NoBracket rest) : DerivesAttribute (.word n :: rest) rest (.name n)
  | property (key : String) (rest : List Token) :
    DerivesAttribute (.word "property" :: .openBracket :: .string key :: .closeBracket :: rest) rest
      (.property key)

mutual

/-- The tree at the start of a list of tokens by a rule, and what comes after it. -/
inductive Derives : Rule → List Token → List Token → Filter → Prop
  | filter {ts us rest : List Token} {f : Filter} {gs : List Filter}
    (first : Derives .conjunction ts us f) (more : Repeats "or" .conjunction us rest gs) :
    Derives .filter ts rest (gs.foldl .or f)
  | conjunction {ts us rest : List Token} {f : Filter} {gs : List Filter}
    (first : Derives .comparison ts us f) (more : Repeats "and" .comparison us rest gs) :
    Derives .conjunction ts rest (gs.foldl .and f)
  | parenthesized {ts rest : List Token} {f : Filter}
    (h : Derives .filter ts (.closeParen :: rest) f) : Derives .comparison (.openParen :: ts) rest f
  | attributeFirst {ts us rest : List Token} {a : Attribute} {l : Literal} (o : Op)
    (ha : DerivesAttribute ts (.op o :: (us ++ rest)) a) (hl : SpellsLiteral us l) :
    Derives .comparison ts rest (.comparison ⟨.attribute a, o, .literal l⟩)
  | literalFirst {ts us rest : List Token} {a : Attribute} {l : Literal} (o : Op)
    (hl : SpellsLiteral ts l) (ha : DerivesAttribute us rest a) :
    Derives .comparison (ts ++ .op o :: us) rest (.comparison ⟨.literal l, o, .attribute a⟩)

/-- Any number of trees by a rule, each after the same word. -/
inductive Repeats : String → Rule → List Token → List Token → List Filter → Prop
  | done (word : String) (rule : Rule) (rest : List Token) : Repeats word rule rest rest []
  | again {word : String} {rule : Rule} {ts us rest : List Token} {f : Filter} {fs : List Filter}
    (h : Derives rule ts us f) (more : Repeats word rule us rest fs) :
    Repeats word rule (.word word :: ts) rest (f :: fs)

end

theorem DerivesAttribute.spells {ts rest : List Token} {a : Attribute}
    (h : DerivesAttribute ts rest a) : ∃ us, ts = us ++ rest ∧ SpellsAttribute us a := by
  rcases h with ⟨hn, -⟩ | ⟨key, -⟩
  · exact ⟨_, rfl, .name hn⟩
  · exact ⟨_, rfl, .property key⟩

mutual

theorem Derives.spells {rule : Rule} {ts rest : List Token} {f : Filter} :
    Derives rule ts rest f → ∃ us, ts = us ++ rest ∧ Spells rule us f
  | .filter first more => by
    obtain ⟨us, rfl, hf⟩ := first.spells
    exact more.spells .or hf.alone
  | .conjunction first more => by
    obtain ⟨us, rfl, hf⟩ := first.spells
    exact more.spells .and hf.single
  | .parenthesized h => by
    obtain ⟨us, rfl, hf⟩ := h.spells
    exact ⟨_, by simp, hf.parenthesized⟩
  | .attributeFirst o ha hl => by
    obtain ⟨vs, rfl, hs⟩ := ha.spells
    exact ⟨_, by simp, .attributeFirst o hs hl⟩
  | .literalFirst o hl ha => by
    obtain ⟨vs, rfl, hs⟩ := ha.spells
    exact ⟨_, by simp, .literalFirst o hl hs⟩

/-- What is repeated spells a longer chain, if each member makes a chain longer by one. -/
theorem Repeats.spells {word : String} {rule chain : Rule} {join : Filter → Filter → Filter}
    {ts rest : List Token} {gs : List Filter} :
    Repeats word rule ts rest gs →
    (∀ {us vs f g}, Spells chain us f → Spells rule vs g →
      Spells chain (us ++ .word word :: vs) (join f g)) →
    ∀ {us f}, Spells chain us f →
      ∃ vs, us ++ ts = vs ++ rest ∧ Spells chain vs (gs.foldl join f)
  | .done _ _ _, _, us, f, hf => ⟨us, rfl, hf⟩
  | .again h more, hjoin, us, f, hf => by
    obtain ⟨ws, rfl, hg⟩ := h.spells
    obtain ⟨vs, he, hvs⟩ := more.spells hjoin (hjoin hf hg)
    exact ⟨vs, by simpa using he, hvs⟩

end

theorem Repeats.concat {word : String} {rule : Rule} {us rest : List Token} {g : Filter}
    (h : Derives rule us rest g) : ∀ {ts mid : List Token} {fs : List Filter},
      Repeats word rule ts mid fs → mid = .word word :: us → Repeats word rule ts rest (fs ++ [g])
  | _, _, _, .done _ _ _, rfl => .again h (.done word rule rest)
  | _, _, _, .again h' more, hm => .again h' (more.concat h hm)

theorem Derives.or {ts us rest : List Token} {f g : Filter}
    (hf : Derives .filter ts (.word "or" :: us) f) (hg : Derives .conjunction us rest g) :
    Derives .filter ts rest (.or f g) := by
  cases hf with
  | @filter _ _ _ f gs first more =>
    have h := Derives.filter first (more.concat hg rfl)
    rwa [List.foldl_append] at h

theorem Derives.and {ts us rest : List Token} {f g : Filter}
    (hf : Derives .conjunction ts (.word "and" :: us) f) (hg : Derives .comparison us rest g) :
    Derives .conjunction ts rest (.and f g) := by
  cases hf with
  | @conjunction _ _ _ f gs first more =>
    have h := Derives.conjunction first (more.concat hg rfl)
    rwa [List.foldl_append] at h

theorem derivesAttribute_of_spells {us rest : List Token} {a : Attribute}
    (h : SpellsAttribute us a) (hb : NoBracket rest) : DerivesAttribute (us ++ rest) rest a := by
  rcases h with hn | key
  · exact .name hn fun _ => hb
  · exact .property key rest

/-- Tokens that spell a filter have it as their tree, if no bracket comes next.  Inside, the grammar
puts no bracket after a name either. -/
theorem Spells.derives {rule : Rule} {us : List Token} {f : Filter} (h : Spells rule us f) :
    ∀ {rest : List Token}, NoBracket rest → Derives rule (us ++ rest) rest f := by
  induction h with
  | alone _ ih => exact fun hb => .filter (ih hb) (.done _ _ _)
  | single _ ih => exact fun hb => .conjunction (ih hb) (.done _ _ _)
  | or _ _ ihf ihg =>
    intro rest hb
    rw [List.append_assoc, List.cons_append]
    exact .or (ihf (by simp [NoBracket])) (ihg hb)
  | and _ _ ihf ihg =>
    intro rest hb
    rw [List.append_assoc, List.cons_append]
    exact .and (ihf (by simp [NoBracket])) (ihg hb)
  | parenthesized _ ih =>
    intro rest hb
    rw [List.cons_append, List.append_assoc]
    exact .parenthesized (ih (by simp [NoBracket]))
  | attributeFirst o ha hl =>
    intro rest hb
    rw [List.append_assoc, List.cons_append]
    exact .attributeFirst o (derivesAttribute_of_spells ha (by simp [NoBracket])) hl
  | literalFirst o hl ha =>
    intro rest hb
    rw [List.append_assoc, List.cons_append]
    exact .literalFirst o hl (derivesAttribute_of_spells ha hb)

/-- What spells a whole list of tokens is its tree, and the other way around. -/
theorem derives_iff_spells {ts : List Token} {f : Filter} :
    Derives .filter ts [] f ↔ Spells .filter ts f := by
  constructor
  · intro h
    obtain ⟨us, rfl, hs⟩ := h.spells
    rwa [List.append_nil]
  · intro h
    have hd : Derives .filter (ts ++ []) [] f := h.derives (by simp [NoBracket])
    rwa [List.append_nil] at hd

/-- A text that can be cut into tokens is read as the tree of its tokens, and they have no other
tree. -/
theorem parse_ok_iff_derives {text : String} {ts : List Lexeme} (h : lex text = .ok ts) :
    (∀ f, parse text = .ok f ↔ Derives .filter (tokens ts) [] f) ∧
      ∀ f g, Derives .filter (tokens ts) [] f → Derives .filter (tokens ts) [] g → f = g := by
  have hread (f : Filter) : parse text = .ok f ↔ Derives .filter (tokens ts) [] f := by
    rw [derives_iff_spells, parse_ok_iff, h]
    simp
  refine ⟨hread, fun f g hf hg => ?_⟩
  rw [← hread] at hf hg
  exact Except.ok.inj (hf.symm.trans hg)

/-- The brackets make `property` no name, and the parentheses leave no trace. -/
theorem parse_derives_nested :
    ∃ ts, lex "a=1 or (02<property['k'])" = .ok ts ∧
      parse "a=1 or (02<property['k'])" = .ok (.or
        (.comparison ⟨.attribute (.name "a"), .eq, .literal (.int 1)⟩)
        (.comparison ⟨.literal (.int 2), .lt, .attribute (.property "k")⟩)) := by
  have hname : Spells .comparison ([.word "a"] ++ .op .eq :: [.int "1"])
      (.comparison ⟨.attribute (.name "a"), .eq, .literal (.int 1)⟩) :=
    .attributeFirst .eq (.name (by decide)) (.int (by decide))
  have hkey : Spells .comparison ([.int "02"] ++ .op .lt ::
        [.word "property", .openBracket, .string "k", .closeBracket])
      (.comparison ⟨.literal (.int 2), .lt, .attribute (.property "k")⟩) :=
    .literalFirst .lt (.int (by decide)) (.property "k")
  have hor := hname.single.alone.or hkey.single.alone.parenthesized.single
  refine ⟨_, by cbv, ((parse_ok_iff_derives (by cbv)).1 _).2 (derives_iff_spells.2 ?_)⟩
  exact hor

end Cimi.Filter
