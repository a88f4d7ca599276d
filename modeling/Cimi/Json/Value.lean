import Cimi.Json.Double

/-!
# JSON values

An object is the list of its members in the order in which they were first written.  Members are
found by key (`Members.get?`), and setting a key that is there keeps its place (`Members.put`).
-/

namespace Cimi.Json

/-- A number is an integer, or a double where the text was no integer in range. -/
inductive Number where
  | int (z : Int)
  | double (d : Double)
deriving DecidableEq, Repr, Inhabited

/-- A JSON value. -/
inductive Value where
  | null
  | bool (b : Bool)
  | number (n : Number)
  | string (s : String)
  | array (items : List Value)
  | object (members : List (String × Value))
deriving Repr, Inhabited

/-- The members of an object, in order. -/
abbrev Members := List (String × Value)

namespace Members

/-- The value of a key. -/
def get? (ms : Members) (key : String) : Option Value := List.lookup key ms

/-- Sets the value of a key: in its place if the key is there, else at the end. -/
def put (key : String) (value : Value) : Members → Members
  | [] => [(key, value)]
  | m :: ms => if m.1 = key then (key, value) :: ms else m :: put key value ms

/-- The members without a key. -/
def remove (key : String) (ms : Members) : Members := ms.filter (·.1 ≠ key)

/-- The members with the keys of a written object; of a repeated key the last value counts. -/
def ofList (ms : List (String × Value)) : Members :=
  ms.foldl (fun acc m => put m.1 m.2 acc) []

theorem keys_put (key : String) (value : Value) : ∀ ms : Members,
    (put key value ms).map (·.1) =
      if key ∈ ms.map (·.1) then ms.map (·.1) else ms.map (·.1) ++ [key]
  | [] => by simp [put]
  | m :: ms => by
    by_cases h : m.1 = key
    · simp [put, h]
    · rw [put, if_neg h, List.map_cons, keys_put key value ms]
      simp only [List.map_cons, List.mem_cons, Ne.symm h, false_or]
      split <;> simp

theorem nodup_put {key : String} {value : Value} {ms : Members} (h : (ms.map (·.1)).Nodup) :
    ((put key value ms).map (·.1)).Nodup := by
  rw [keys_put]
  split
  · exact h
  · next hk =>
    rw [List.nodup_append]
    exact ⟨h, by simp, fun a ha b hb => by
      rw [List.mem_singleton.1 hb]
      exact fun he => hk (he ▸ ha)⟩

end Members

namespace Value

/-- The text of a string. -/
def string? : Value → Option String
  | .string s => some s
  | _ => none

/-- The members of an object. -/
def object? : Value → Option Members
  | .object ms => some ms
  | _ => none

/-- The items of an array. -/
def array? : Value → Option (List Value)
  | .array items => some items
  | _ => none

/-- The value of a number that is an integer. -/
def int? : Value → Option Int
  | .number (.int z) => some z
  | _ => none

/-- The value of a key, if the value is an object that has it. -/
def get? (v : Value) (key : String) : Option Value := v.object?.bind (Members.get? · key)

mutual

/-- Decides whether two values are the same, the order of members included. -/
def decEq : (a b : Value) → Decidable (a = b)
  | .null, .null => isTrue rfl
  | .bool a, .bool b => decidable_of_iff (a = b) (by simp)
  | .number a, .number b => decidable_of_iff (a = b) (by simp)
  | .string a, .string b => decidable_of_iff (a = b) (by simp)
  | .array as, .array bs =>
    match decEqItems as bs with
    | isTrue h => isTrue (h ▸ rfl)
    | isFalse h => isFalse fun he => h (Value.array.inj he)
  | .object as, .object bs =>
    match decEqMembers as bs with
    | isTrue h => isTrue (h ▸ rfl)
    | isFalse h => isFalse fun he => h (Value.object.inj he)
  | .null, .bool _ | .null, .number _ | .null, .string _ | .null, .array _ | .null, .object _
  | .bool _, .null | .bool _, .number _ | .bool _, .string _ | .bool _, .array _
  | .bool _, .object _ | .number _, .null | .number _, .bool _ | .number _, .string _
  | .number _, .array _ | .number _, .object _ | .string _, .null | .string _, .bool _
  | .string _, .number _ | .string _, .array _ | .string _, .object _ | .array _, .null
  | .array _, .bool _ | .array _, .number _ | .array _, .string _ | .array _, .object _
  | .object _, .null | .object _, .bool _ | .object _, .number _ | .object _, .string _
  | .object _, .array _ => isFalse fun h => nomatch h

/-- Decides whether two lists of values are the same. -/
def decEqItems : (as bs : List Value) → Decidable (as = bs)
  | [], [] => isTrue rfl
  | [], _ :: _ => isFalse nofun
  | _ :: _, [] => isFalse nofun
  | a :: as, b :: bs =>
    match decEq a b, decEqItems as bs with
    | isTrue h, isTrue hs => isTrue (h ▸ hs ▸ rfl)
    | isFalse h, _ => isFalse fun he => h (List.cons.inj he).1
    | _, isFalse hs => isFalse fun he => hs (List.cons.inj he).2

/-- Decides whether two lists of members are the same. -/
def decEqMembers : (as bs : List (String × Value)) → Decidable (as = bs)
  | [], [] => isTrue rfl
  | [], _ :: _ => isFalse nofun
  | _ :: _, [] => isFalse nofun
  | (j, a) :: as, (k, b) :: bs =>
    if hk : j = k then
      match decEq a b, decEqMembers as bs with
      | isTrue h, isTrue hs => isTrue (hk ▸ h ▸ hs ▸ rfl)
      | isFalse h, _ => isFalse fun he => h (Prod.mk.inj (List.cons.inj he).1).2
      | _, isFalse hs => isFalse fun he => hs (List.cons.inj he).2
    else isFalse fun he => hk (Prod.mk.inj (List.cons.inj he).1).1

end

instance : DecidableEq Value := decEq

end Value

end Cimi.Json
