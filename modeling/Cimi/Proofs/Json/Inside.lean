import Cimi.Proofs.Json.Scalars

/-!
# What is inside a value

A property of values may be asked of a value and of all that it holds (`Value.all`), and a value
has a depth (`Value.depth`).  A value without doubles and without integers that are too great is
exact (`Value.isExact`); a value whose objects have each key once is keyed (`Value.isKeyed`).
-/

namespace Cimi.Json

namespace Members

variable {key : String} {value : Value}

theorem mem_put {m : String × Value} : ∀ {ms : Members},
    m ∈ put key value ms → m = (key, value) ∨ m ∈ ms
  | [], h => .inl (List.mem_singleton.1 h)
  | n :: ms, h => by
    unfold put at h
    split_ifs at h
    · rcases List.mem_cons.1 h with rfl | h
      · exact .inl rfl
      · exact .inr (.tail _ h)
    · rcases List.mem_cons.1 h with rfl | h
      · exact .inr (.head _)
      · exact (mem_put h).imp_right (.tail _)

theorem put_of_notMem : ∀ {ms : Members},
    key ∉ ms.map (·.1) → put key value ms = ms ++ [(key, value)]
  | [], _ => rfl
  | m :: ms, h => by
    obtain ⟨hm, hms⟩ : key ≠ m.1 ∧ key ∉ ms.map (·.1) := by simpa using h
    rw [put, if_neg (Ne.symm hm), put_of_notMem hms]
    rfl

end Members

namespace Value

mutual

/-- Whether a value and all that it holds are such. -/
def all (p : Value → Bool) : Value → Bool
  | .null => p .null
  | .bool b => p (.bool b)
  | .number n => p (.number n)
  | .string s => p (.string s)
  | .array vs => p (.array vs) && allItems p vs
  | .object ms => p (.object ms) && allMembers p ms

/-- Whether the items of a list and all that they hold are such. -/
def allItems (p : Value → Bool) : List Value → Bool
  | [] => true
  | v :: vs => v.all p && allItems p vs

/-- Whether the values of an object and all that they hold are such. -/
def allMembers (p : Value → Bool) : List (String × Value) → Bool
  | [] => true
  | (_, v) :: ms => v.all p && allMembers p ms

end

mutual

/-- How many containers stand inside each other. -/
def depth : Value → Nat
  | .null => 0
  | .bool _ => 0
  | .number _ => 0
  | .string _ => 0
  | .array vs => depthItems vs + 1
  | .object ms => depthMembers ms + 1

/-- The greatest depth of an item. -/
def depthItems : List Value → Nat
  | [] => 0
  | v :: vs => max v.depth (depthItems vs)

/-- The greatest depth of a value of an object. -/
def depthMembers : List (String × Value) → Nat
  | [] => 0
  | (_, v) :: ms => max v.depth (depthMembers ms)

end

/-- Whether a value is no number that a reader may change. -/
def isExact : Value → Bool
  | .number (.int z) => Reader.InRange z
  | .number (.double _) => false
  | _ => true

/-- Whether a value is no object that has a key twice. -/
def isKeyed : Value → Bool
  | .object ms => (ms.map (·.1)).Nodup
  | _ => true

theorem allItems_eq_true (p : Value → Bool) : ∀ vs : List Value,
    allItems p vs = true ↔ ∀ v ∈ vs, v.all p = true
  | [] => by simp [allItems]
  | v :: vs => by simp [allItems, allItems_eq_true p vs]

theorem allMembers_eq_true (p : Value → Bool) : ∀ ms : Members,
    allMembers p ms = true ↔ ∀ m ∈ ms, m.2.all p = true
  | [] => by simp [allMembers]
  | (k, v) :: ms => by simp [allMembers, allMembers_eq_true p ms]

theorem depthItems_le (n : Nat) : ∀ vs : List Value, depthItems vs ≤ n ↔ ∀ v ∈ vs, v.depth ≤ n
  | [] => by simp [depthItems]
  | v :: vs => by simp [depthItems, depthItems_le n vs]

theorem depthMembers_le (n : Nat) : ∀ ms : Members,
    depthMembers ms ≤ n ↔ ∀ m ∈ ms, m.2.depth ≤ n
  | [] => by simp [depthMembers]
  | (k, v) :: ms => by simp [depthMembers, depthMembers_le n ms]

mutual

theorem all_and (p q : Value → Bool) :
    ∀ v : Value, (v.all fun w => p w && q w) = (v.all p && v.all q)
  | .null | .bool _ | .number _ | .string _ => rfl
  | .array vs => by
    simp only [all, allItems_and p q vs]
    ac_rfl
  | .object ms => by
    simp only [all, allMembers_and p q ms]
    ac_rfl

theorem allItems_and (p q : Value → Bool) :
    ∀ vs : List Value, allItems (fun w => p w && q w) vs = (allItems p vs && allItems q vs)
  | [] => rfl
  | v :: vs => by
    simp only [allItems, all_and p q v, allItems_and p q vs]
    ac_rfl

theorem allMembers_and (p q : Value → Bool) : ∀ ms : List (String × Value),
    allMembers (fun w => p w && q w) ms = (allMembers p ms && allMembers q ms)
  | [] => rfl
  | (_, v) :: ms => by
    simp only [allMembers, all_and p q v, allMembers_and p q ms]
    ac_rfl

end

theorem of_all {p : Value → Bool} {v : Value} (h : v.all p = true) : p v = true := by
  cases v <;> simp_all [all]

end Value

end Cimi.Json
