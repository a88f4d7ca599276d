import Cimi.Proofs.Filter.Grammar

/-!
# The outline of a filter

The grammar without its conditions on comparisons: a comparison is any side, an operator and any
side, and an integer or a date is a side whatever its value.  `Outline` says where the comparisons of
such a list stand, and which kind of sides they have.

Tokens are viable if more tokens make an outline of them.  What has been read of the groups that are
open is viable, for it can go on with any comparison and the parentheses that are missing
(`OuterReads.outline`).
-/

namespace Cimi.Filter

/-- The kinds of sides of a comparison. -/
inductive Side where
  | attribute
  | literal
deriving DecidableEq, Repr

/-- The tokens that have the form of a side. -/
inductive OutlinesSide : List Token → Side → Prop
  | attribute {ts : List Token} {a : Attribute} (h : SpellsAttribute ts a) :
    OutlinesSide ts .attribute
  | int (digits : String) : OutlinesSide [.int digits] .literal
  | string (s : String) : OutlinesSide [.string s] .literal
  | date (text : String) : OutlinesSide [.date text] .literal
  | yes : OutlinesSide [.word "true"] .literal
  | no : OutlinesSide [.word "false"] .literal

/-- Where a comparison stands in a list of tokens, and the kinds of its sides. -/
structure Place where
  first : Nat
  size : Nat
  left : Side
  right : Side
deriving DecidableEq, Repr

namespace Place

/-- Whether exactly one side is an attribute. -/
def isMixed (p : Place) : Bool := p.left ≠ p.right

/-- The place after some more tokens. -/
def shift (n : Nat) (p : Place) : Place := { p with first := n + p.first }

theorem shift_zero : shift 0 = id := by
  funext p
  simp [shift]

theorem shift_shift (m n : Nat) (p : Place) : (p.shift m).shift n = p.shift (n + m) := by
  simp [shift, Nat.add_assoc]

@[simp] theorem isMixed_shift (n : Nat) (p : Place) : (p.shift n).isMixed = p.isMixed := rfl

end Place

/-- The tokens that have the form of a filter by a rule, with its comparisons in order. -/
inductive Outline : Rule → List Token → List Place → Prop
  | alone {ts : List Token} {ps : List Place} (h : Outline .conjunction ts ps) :
    Outline .filter ts ps
  | or {ts us : List Token} {ps qs : List Place} (hf : Outline .filter ts ps)
    (hg : Outline .conjunction us qs) :
    Outline .filter (ts ++ .word "or" :: us) (ps ++ qs.map (.shift (ts.length + 1)))
  | single {ts : List Token} {ps : List Place} (h : Outline .comparison ts ps) :
    Outline .conjunction ts ps
  | and {ts us : List Token} {ps qs : List Place} (hf : Outline .conjunction ts ps)
    (hg : Outline .comparison us qs) :
    Outline .conjunction (ts ++ .word "and" :: us) (ps ++ qs.map (.shift (ts.length + 1)))
  | parenthesized {ts : List Token} {ps : List Place} (h : Outline .filter ts ps) :
    Outline .comparison (.openParen :: (ts ++ [.closeParen])) (ps.map (.shift 1))
  | comparison {ts us : List Token} {left right : Side} (o : Op) (hl : OutlinesSide ts left)
    (hr : OutlinesSide us right) :
    Outline .comparison (ts ++ .op o :: us) [⟨0, (ts ++ .op o :: us).length, left, right⟩]

/-- More tokens make an outline of these. -/
def Viable (ts : List Token) : Prop := ∃ us ps, Outline .filter (ts ++ us) ps

/-! ## What spells a filter has an outline -/

theorem SpellsLiteral.outlinesSide {ts : List Token} {l : Literal} (h : SpellsLiteral ts l) :
    OutlinesSide ts .literal := by
  cases h with
  | int => exact .int _
  | string => exact .string _
  | date => exact .date _
  | yes => exact .yes
  | no => exact .no

/-- The kind of a side. -/
def Operand.side : Operand → Side
  | .attribute _ => .attribute
  | .literal _ => .literal

theorem SpellsOperand.outlinesSide {ts : List Token} {o : Operand} (h : SpellsOperand ts o) :
    OutlinesSide ts o.side := by
  rcases h with ha | hl
  · exact .attribute ha
  · exact hl.outlinesSide

theorem Spells.outline {rule : Rule} {ts : List Token} {f : Filter} (h : Spells rule ts f) :
    ∃ ps, Outline rule ts ps ∧ ∀ p ∈ ps, p.isMixed := by
  induction h with
  | alone _ ih =>
    obtain ⟨ps, hps, hmixed⟩ := ih
    exact ⟨ps, .alone hps, hmixed⟩
  | single _ ih =>
    obtain ⟨ps, hps, hmixed⟩ := ih
    exact ⟨ps, .single hps, hmixed⟩
  | or _ _ ihf ihg =>
    obtain ⟨ps, hps, hp⟩ := ihf
    obtain ⟨qs, hqs, hq⟩ := ihg
    exact ⟨_, .or hps hqs, by simpa [or_imp, forall_and] using ⟨hp, hq⟩⟩
  | and _ _ ihf ihg =>
    obtain ⟨ps, hps, hp⟩ := ihf
    obtain ⟨qs, hqs, hq⟩ := ihg
    exact ⟨_, .and hps hqs, by simpa [or_imp, forall_and] using ⟨hp, hq⟩⟩
  | parenthesized _ ih =>
    obtain ⟨ps, hps, hmixed⟩ := ih
    exact ⟨_, .parenthesized hps, by simpa using hmixed⟩
  | attributeFirst o ha hl => exact ⟨_, .comparison o (.attribute ha) hl.outlinesSide, by simp; rfl⟩
  | literalFirst o hl ha => exact ⟨_, .comparison o hl.outlinesSide (.attribute ha), by simp; rfl⟩

/-! ## What has been read can go on -/

section

variable {rule sub : Rule} {word : String} {joined : Option Filter} {us vs ts : List Token}
  {ps : List Place} {outer : List Group} {g : Group}

/-- After what has been joined, one more member makes a longer chain. -/
theorem Joined.outline (h : Joined rule word joined us)
    (hone : ∀ {ts ps}, Outline sub ts ps → Outline rule ts ps)
    (hjoin : ∀ {ts us ps qs}, Outline rule ts ps → Outline sub us qs →
      Outline rule (ts ++ .word word :: us) (ps ++ qs.map (.shift (ts.length + 1))))
    (ht : Outline sub ts ps) :
    ∃ before, (∀ p ∈ before, p.isMixed) ∧
      Outline rule (us ++ ts) (before ++ ps.map (.shift us.length)) := by
  cases h with
  | none => exact ⟨[], by simp, by simpa [Place.shift_zero] using hone ht⟩
  | some h =>
    obtain ⟨before, hbefore, hmixed⟩ := h.outline
    exact ⟨before, hmixed, by simpa using hjoin hbefore ht⟩

theorem GroupReads.outline (hg : GroupReads g vs) (ht : Outline .comparison ts ps) :
    ∃ before, (∀ p ∈ before, p.isMixed) ∧
      Outline .filter (vs ++ ts) (before ++ ps.map (.shift vs.length)) := by
  obtain ⟨ha, hc⟩ := hg
  rename_i us vs
  obtain ⟨conjuncts, hconjuncts, h⟩ := hc.outline .single .and ht
  obtain ⟨alternatives, halternatives, h⟩ := ha.outline .alone .or h
  refine ⟨alternatives ++ conjuncts.map (.shift us.length), ?_, ?_⟩
  · simpa [or_imp, forall_and] using ⟨halternatives, hconjuncts⟩
  · simpa [Function.comp_def, Place.shift_shift] using h

/-- What has been read makes an outline with a comparison and the parentheses that are missing, and
all comparisons before this one are mixed. -/
theorem OuterReads.outline (ho : OuterReads outer us) :
    ∀ {g vs ts ps}, GroupReads g vs → Outline .comparison ts ps →
      ∃ before ws, (∀ p ∈ before, p.isMixed) ∧
        Outline .filter (us ++ (vs ++ (ts ++ ws))) (before ++ ps.map (.shift (us.length + vs.length))) := by
  induction ho with
  | nil =>
    intro g vs ts ps hg ht
    obtain ⟨before, hbefore, h⟩ := hg.outline ht
    exact ⟨before, [], hbefore, by simpa using h⟩
  | @cons outer g' us vs' ho hg' ih =>
    intro g vs ts ps hg ht
    obtain ⟨inner, hinner, h⟩ := hg.outline ht
    obtain ⟨before, ws, hbefore, h⟩ := ih hg' h.parenthesized
    refine ⟨before ++ (inner.map (.shift 1)).map (.shift (us.length + vs'.length)),
      .closeParen :: ws, ?_, ?_⟩
    · simpa [or_imp, forall_and] using ⟨hbefore, hinner⟩
    · simpa [Function.comp_def, Place.shift_shift, Nat.add_assoc] using h

end

end Cimi.Filter
