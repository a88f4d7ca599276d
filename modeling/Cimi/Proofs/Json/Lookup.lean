import Cimi.Json.Value
import Mathlib.Data.List.Basic
import Mathlib.Tactic.Common

/-!
# Members by their keys

In an object that has each key once, a value is found for a key exactly if the two stand together
(`get?_eq_some_iff`).  So what is found does not depend on the order of the members (`get?_perm`).
-/

namespace Cimi.Json.Members

variable {ms ns : Members} {key : String} {v : Value}

theorem get?_cons (m : String × Value) (ms : Members) (key : String) :
    get? (m :: ms) key = if m.1 = key then some m.2 else ms.get? key := by
  rw [get?, List.lookup_cons]
  rcases hk : key == m.1 with _ | _
  · rw [if_neg (Ne.symm (beq_eq_false_iff_ne.1 hk))]
    rfl
  · rw [if_pos (eq_of_beq hk).symm]

theorem get?_eq_none_iff : ms.get? key = none ↔ key ∉ ms.map (·.1) := by
  induction ms with
  | nil => exact ⟨fun _ => List.not_mem_nil, fun _ => rfl⟩
  | cons m ms ih =>
    rw [get?_cons, List.map_cons, List.mem_cons, not_or, ← ih]
    split_ifs with hk
    · simp [hk]
    · simp [Ne.symm hk]

theorem get?_eq_some_iff (h : (ms.map (·.1)).Nodup) : ms.get? key = some v ↔ (key, v) ∈ ms := by
  induction ms with
  | nil => simp [get?]
  | cons m ms ih =>
    obtain ⟨k, w⟩ := m
    rw [List.map_cons, List.nodup_cons] at h
    rw [get?_cons, List.mem_cons]
    split_ifs with hk
    · -- The key is that of the first member, so it stands nowhere else.
      subst hk
      have hrest : (k, v) ∉ ms := fun hmem => h.1 (List.mem_map.2 ⟨_, hmem, rfl⟩)
      simp [hrest, eq_comm]
    · simp [ih h.2, Ne.symm hk]

theorem get?_perm (hp : ms.Perm ns) (h : (ms.map (·.1)).Nodup) (key : String) :
    ms.get? key = ns.get? key := by
  have hns : (ns.map (·.1)).Nodup := (hp.map _).nodup_iff.1 h
  refine Option.ext fun v => ?_
  rw [get?_eq_some_iff h, get?_eq_some_iff hns, hp.mem_iff]

/-- Among the members whose keys have a property, those with such a key are found. -/
theorem get?_filter (p : String → Bool) (ms : Members) (key : String) :
    get? (ms.filter fun m => p m.1) key = if p key then ms.get? key else none := by
  induction ms with
  | nil => simp [get?]
  | cons m ms ih =>
    rw [List.filter_cons, get?_cons]
    by_cases hk : m.1 = key
    · subst hk
      rw [if_pos rfl]
      split_ifs with hp
      · rw [get?_cons, if_pos rfl]
      · rw [ih, if_neg hp]
    · rw [if_neg hk, ← ih]
      split_ifs
      · rw [get?_cons, if_neg hk]
      · rfl

end Cimi.Json.Members
