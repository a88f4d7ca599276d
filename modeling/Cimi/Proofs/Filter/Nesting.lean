import Cimi.Filter.Basic
import Mathlib.Tactic.Common

/-!
# Chains of `and` and of `or`

The canonical text does not show how a chain of `and`s or of `or`s is nested, so it is the text of
several filters.  They are the ones that become each other by rotating chains (`Rotates`), and a
rotation changes neither the text nor the comparisons nor what the filter means.  Every filter
rotates to one whose chains all nest to the left (`rotates_leftNested`, `isLeftNested_leftNested`).
-/

namespace Cimi.Filter

/-- Whether a filter holds, from which of its comparisons hold. -/
def eval (holds : Comparison → Bool) : Filter → Bool
  | .comparison c => holds c
  | .and l r => l.eval holds && r.eval holds
  | .or l r => l.eval holds || r.eval holds

/-- Whether a filter is joined by `and`. -/
def isAnd : Filter → Bool
  | .and _ _ => true
  | _ => false

/-- No `and` stands on the right of an `and`, and no `or` on the right of an `or`. -/
def IsLeftNested : Filter → Prop
  | .comparison _ => True
  | .and l r => l.IsLeftNested ∧ r.IsLeftNested ∧ r.isAnd = false
  | .or l r => l.IsLeftNested ∧ r.IsLeftNested ∧ r.isOr = false

/-- A filter becomes the other by turning chains of `and` and chains of `or` to the left. -/
inductive Rotates : Filter → Filter → Prop
  | refl (f : Filter) : Rotates f f
  | trans {f g h : Filter} (hf : Rotates f g) (hg : Rotates g h) : Rotates f h
  | inAnd {f f' g g' : Filter} (hf : Rotates f f') (hg : Rotates g g') :
    Rotates (.and f g) (.and f' g')
  | inOr {f f' g g' : Filter} (hf : Rotates f f') (hg : Rotates g g') :
    Rotates (.or f g) (.or f' g')
  | and (f g h : Filter) : Rotates (.and f (.and g h)) (.and (.and f g) h)
  | or (f g h : Filter) : Rotates (.or f (.or g h)) (.or (.or f g) h)

/-- The chain of `and`s that begins with `f` and goes on with the members of a chain. -/
def appendAnd (f : Filter) : Filter → Filter
  | .and l r => .and (f.appendAnd l) r
  | g => .and f g

/-- The chain of `or`s that begins with `f` and goes on with the members of a chain. -/
def appendOr (f : Filter) : Filter → Filter
  | .or l r => .or (f.appendOr l) r
  | g => .or f g

/-- The filter with all its chains nested to the left. -/
def leftNested : Filter → Filter
  | .comparison c => .comparison c
  | .and l r => l.leftNested.appendAnd r.leftNested
  | .or l r => l.leftNested.appendOr r.leftNested

/-! ## What rotating keeps -/

theorem Rotates.isAnd_eq {f g : Filter} (h : Rotates f g) : f.isAnd = g.isAnd := by
  induction h with
  | trans _ _ ihf ihg => exact ihf.trans ihg
  | _ => rfl

theorem Rotates.isOr_eq {f g : Filter} (h : Rotates f g) : f.isOr = g.isOr := by
  induction h with
  | trans _ _ ihf ihg => exact ihf.trans ihg
  | _ => rfl

theorem Rotates.comparisons_eq {f g : Filter} (h : Rotates f g) :
    f.comparisons = g.comparisons := by
  induction h with
  | refl => rfl
  | trans _ _ ihf ihg => exact ihf.trans ihg
  | inAnd _ _ ihf ihg => simp only [comparisons, ihf, ihg]
  | inOr _ _ ihf ihg => simp only [comparisons, ihf, ihg]
  | and f g h => simp only [comparisons, List.append_assoc]
  | or f g h => simp only [comparisons, List.append_assoc]

theorem Rotates.eval_eq (holds : Comparison → Bool) {f g : Filter} (h : Rotates f g) :
    f.eval holds = g.eval holds := by
  induction h with
  | refl => rfl
  | trans _ _ ihf ihg => exact ihf.trans ihg
  | inAnd _ _ ihf ihg => simp only [eval, ihf, ihg]
  | inOr _ _ ihf ihg => simp only [eval, ihf, ihg]
  | and f g h => simp only [eval, Bool.and_assoc]
  | or f g h => simp only [eval, Bool.or_assoc]

theorem Rotates.write_eq {f g : Filter} (h : Rotates f g) : f.write = g.write := by
  induction h with
  | refl => rfl
  | trans _ _ ihf ihg => exact ihf.trans ihg
  | inAnd hf hg ihf ihg => simp only [write, parenthesized, hf.isOr_eq, hg.isOr_eq, ihf, ihg]
  | inOr _ _ ihf ihg => simp only [write, ihf, ihg]
  | and f g h => simp [write, parenthesized, isOr]
  | or f g h => simp only [write, List.append_assoc]

/-! ## Nesting to the left -/

theorem appendAnd_of_isAnd (f : Filter) : ∀ {g : Filter}, g.isAnd = false → f.appendAnd g = .and f g
  | .comparison _, _ => rfl
  | .or _ _, _ => rfl
  | .and _ _, h => by simp [isAnd] at h

theorem appendOr_of_isOr (f : Filter) : ∀ {g : Filter}, g.isOr = false → f.appendOr g = .or f g
  | .comparison _, _ => rfl
  | .and _ _, _ => rfl
  | .or _ _, h => by simp [isOr] at h

theorem appendAnd_assoc (f g : Filter) : ∀ h : Filter,
    (f.appendAnd g).appendAnd h = f.appendAnd (g.appendAnd h)
  | .and l r => congrArg (Filter.and · r) (appendAnd_assoc f g l)
  | .comparison _ => rfl
  | .or _ _ => rfl

theorem appendOr_assoc (f g : Filter) : ∀ h : Filter,
    (f.appendOr g).appendOr h = f.appendOr (g.appendOr h)
  | .or l r => congrArg (Filter.or · r) (appendOr_assoc f g l)
  | .comparison _ => rfl
  | .and _ _ => rfl

theorem rotates_appendAnd (f : Filter) : ∀ g : Filter, Rotates (.and f g) (f.appendAnd g)
  | .and l r => (Rotates.and f l r).trans (.inAnd (rotates_appendAnd f l) (.refl r))
  | .comparison _ => .refl _
  | .or _ _ => .refl _

theorem rotates_appendOr (f : Filter) : ∀ g : Filter, Rotates (.or f g) (f.appendOr g)
  | .or l r => (Rotates.or f l r).trans (.inOr (rotates_appendOr f l) (.refl r))
  | .comparison _ => .refl _
  | .and _ _ => .refl _

theorem IsLeftNested.appendAnd {f : Filter} (hf : f.IsLeftNested) :
    ∀ {g : Filter}, g.IsLeftNested → (f.appendAnd g).IsLeftNested
  | .and _ _, ⟨hl, hr, h⟩ => ⟨hf.appendAnd hl, hr, h⟩
  | .comparison _, hg => ⟨hf, hg, rfl⟩
  | .or _ _, hg => ⟨hf, hg, rfl⟩

theorem IsLeftNested.appendOr {f : Filter} (hf : f.IsLeftNested) :
    ∀ {g : Filter}, g.IsLeftNested → (f.appendOr g).IsLeftNested
  | .or _ _, ⟨hl, hr, h⟩ => ⟨hf.appendOr hl, hr, h⟩
  | .comparison _, hg => ⟨hf, hg, rfl⟩
  | .and _ _, hg => ⟨hf, hg, rfl⟩

theorem isLeftNested_leftNested : ∀ f : Filter, f.leftNested.IsLeftNested
  | .comparison _ => trivial
  | .and l r => (isLeftNested_leftNested l).appendAnd (isLeftNested_leftNested r)
  | .or l r => (isLeftNested_leftNested l).appendOr (isLeftNested_leftNested r)

theorem rotates_leftNested : ∀ f : Filter, Rotates f f.leftNested
  | .comparison _ => .refl _
  | .and l r => (Rotates.inAnd (rotates_leftNested l) (rotates_leftNested r)).trans
      (rotates_appendAnd _ _)
  | .or l r => (Rotates.inOr (rotates_leftNested l) (rotates_leftNested r)).trans
      (rotates_appendOr _ _)

end Cimi.Filter
