/-!
# Cutting text

A text is cut at a character into its pieces (`split`), once from the left (`cutFirst`) or once
from the right (`cutLast`).  Cutting loses nothing: joining the pieces gives the text back
(`intercalate_split`, `cutFirst_eq_some`, `cutLast_eq_some`).
-/

namespace Cimi.Text

/-- The pieces of a text between its separators; a text without any is one piece. -/
def split (sep : Char) : List Char → List (List Char)
  | [] => [[]]
  | c :: cs =>
    if c = sep then [] :: split sep cs
    else match split sep cs with
      | [] => [[c]]
      | piece :: pieces => (c :: piece) :: pieces

/-- What stands before and after the first separator. -/
def cutFirst (sep : Char) : List Char → Option (List Char × List Char)
  | [] => none
  | c :: cs =>
    if c = sep then some ([], cs)
    else (cutFirst sep cs).map fun (before, after) => (c :: before, after)

/-- What stands before and after the last separator. -/
def cutLast (sep : Char) : List Char → Option (List Char × List Char)
  | [] => none
  | c :: cs =>
    match cutLast sep cs with
    | some (before, after) => some (c :: before, after)
    | none => if c = sep then some ([], cs) else none

/-- What stands before the last place where `pattern` occurs. -/
def beforeLast (pattern : List Char) : List Char → Option (List Char)
  | [] => if pattern.isEmpty then some [] else none
  | c :: cs =>
    match beforeLast pattern cs with
    | some before => some (c :: before)
    | none => if pattern.isPrefixOf (c :: cs) then some [] else none

/-- Whether `pattern` occurs in a text. -/
def contains (pattern cs : List Char) : Bool := (beforeLast pattern cs).isSome

/-- A text without its trailing characters of one kind. -/
def dropRight (p : Char → Bool) (cs : List Char) : List Char :=
  (cs.reverse.dropWhile p).reverse

theorem split_ne_nil (sep : Char) : ∀ cs, split sep cs ≠ []
  | [] => by simp [split]
  | c :: cs => by
    by_cases h : c = sep
    · simp [split, h]
    · simp only [split, h, if_false]
      split <;> simp

theorem intercalate_split (sep : Char) : ∀ cs, [sep].intercalate (split sep cs) = cs
  | [] => rfl
  | c :: cs => by
    have ih := intercalate_split sep cs
    rcases hs : split sep cs with _ | ⟨piece, pieces⟩
    · exact absurd hs (split_ne_nil sep cs)
    · rw [hs] at ih
      by_cases h : c = sep
      · subst h
        simp only [split, hs, if_true]
        rw [← ih]
        simp [List.intercalate]
      · simp only [split, hs, h, if_false]
        rw [← ih]
        cases pieces <;> simp [List.intercalate]

theorem split_of_notMem {sep : Char} : ∀ {cs : List Char}, sep ∉ cs → split sep cs = [cs]
  | [], _ => rfl
  | c :: cs, h => by
    have hc : c ≠ sep := fun hc => h (hc ▸ List.mem_cons_self)
    simp only [split, hc, if_false, split_of_notMem fun hm => h (List.mem_cons_of_mem c hm)]

theorem split_append (sep : Char) (bs : List Char) : ∀ as : List Char,
    split sep (as ++ sep :: bs) = split sep as ++ split sep bs
  | [] => by simp [split]
  | c :: as => by
    by_cases h : c = sep
    · simp [split, h, split_append sep bs as]
    · simp only [List.cons_append, split, h, if_false, split_append sep bs as]
      rcases hs : split sep as with _ | ⟨piece, pieces⟩
      · exact absurd hs (split_ne_nil sep as)
      · rfl

theorem split_intercalate {sep : Char} : ∀ {pieces : List (List Char)}, pieces ≠ [] →
    (∀ piece ∈ pieces, sep ∉ piece) → split sep ([sep].intercalate pieces) = pieces
  | [piece], _, h => by simpa [List.intercalate] using split_of_notMem (h piece (by simp))
  | piece :: next :: pieces, _, h => by
    have ih := split_intercalate (List.cons_ne_nil next pieces) fun p hp => h p (by simp [hp])
    have hjoin : [sep].intercalate (piece :: next :: pieces) =
        piece ++ sep :: [sep].intercalate (next :: pieces) := by
      simp [List.intercalate]
    rw [hjoin, split_append, ih, split_of_notMem (h piece (by simp))]
    rfl

theorem cutFirst_append {sep : Char} {before : List Char} (h : sep ∉ before) (after : List Char) :
    cutFirst sep (before ++ sep :: after) = some (before, after) := by
  induction before with
  | nil => simp [cutFirst]
  | cons c before ih =>
    have hc : c ≠ sep := fun hc => h (hc ▸ List.mem_cons_self)
    have hb : sep ∉ before := fun hm => h (List.mem_cons_of_mem c hm)
    simp [cutFirst, hc, ih hb]

theorem cutFirst_eq_some {sep : Char} : ∀ {cs before after : List Char},
    cutFirst sep cs = some (before, after) → cs = before ++ sep :: after ∧ sep ∉ before
  | [], _, _, h => by simp [cutFirst] at h
  | c :: cs, before, after, h => by
    by_cases hc : c = sep
    · simp only [cutFirst, hc, if_true, Option.some.injEq, Prod.mk.injEq] at h
      obtain ⟨rfl, rfl⟩ := h
      simp [hc]
    · simp only [cutFirst, hc, if_false, Option.map_eq_some_iff, Prod.mk.injEq, Prod.exists] at h
      obtain ⟨b, a, hba, rfl, rfl⟩ := h
      obtain ⟨rfl, hb⟩ := cutFirst_eq_some hba
      exact ⟨rfl, by simp [hb, Ne.symm hc]⟩

theorem cutFirst_eq_none {sep : Char} : ∀ {cs : List Char}, cutFirst sep cs = none ↔ sep ∉ cs
  | [] => by simp [cutFirst]
  | c :: cs => by
    by_cases hc : c = sep
    · simp [cutFirst, hc]
    · simp [cutFirst, hc, cutFirst_eq_none, Ne.symm hc]

theorem cutLast_eq_none {sep : Char} : ∀ {cs : List Char}, cutLast sep cs = none ↔ sep ∉ cs
  | [] => by simp [cutLast]
  | c :: cs => by
    have ih := @cutLast_eq_none sep cs
    rcases hl : cutLast sep cs with _ | ⟨b, a⟩
    · have hn : sep ∉ cs := ih.1 hl
      by_cases hc : c = sep
      · simp [cutLast, hl, hc]
      · simp [cutLast, hl, hc, hn, Ne.symm hc]
    · have hm : ¬ sep ∉ cs := fun hn => by simp [ih.2 hn] at hl
      simp [cutLast, hl, Classical.not_not.1 hm]

theorem cutLast_append {sep : Char} {after : List Char} (h : sep ∉ after) :
    ∀ before : List Char, cutLast sep (before ++ sep :: after) = some (before, after)
  | [] => by simp [cutLast, cutLast_eq_none.2 h]
  | c :: before => by simp [cutLast, cutLast_append h before]

theorem cutLast_eq_some {sep : Char} : ∀ {cs before after : List Char},
    cutLast sep cs = some (before, after) → cs = before ++ sep :: after ∧ sep ∉ after
  | [], _, _, h => by simp [cutLast] at h
  | c :: cs, before, after, h => by
    rcases hl : cutLast sep cs with _ | ⟨b, a⟩
    · by_cases hc : c = sep
      · simp only [cutLast, hl, hc, if_true, Option.some.injEq, Prod.mk.injEq] at h
        obtain ⟨rfl, rfl⟩ := h
        exact ⟨by simp [hc], cutLast_eq_none.1 hl⟩
      · simp [cutLast, hl, hc] at h
    · simp only [cutLast, hl, Option.some.injEq, Prod.mk.injEq] at h
      obtain ⟨rfl, rfl⟩ := h
      obtain ⟨rfl, ha⟩ := cutLast_eq_some hl
      exact ⟨rfl, ha⟩

end Cimi.Text
