import Cimi.Proofs.Json.Inside
import Cimi.Proofs.Outcome

/-!
# What is read has each key once

The reader puts the values that it has read into the frames of its stack.  No frame ever has a key
twice, since a repeated key replaces its value, and no value is deeper than the stack leaves room
for.  So whatever a text spells is keyed, and it is nested fewer than 128 levels (`parse_keyed`).
-/

namespace Cimi.Json

namespace Reader

variable {cs rest : List Char} {c : Char} {stack : List Frame} {f : Frame} {v w : Value}
  {result : Value × List Char}

/-- A value whose objects have each key once, and that is not too deep for its place. -/
structure Fits (stack : List Frame) (v : Value) : Prop where
  keyed : v.all Value.isKeyed = true
  shallow : stack.length + v.depth ≤ maxDepth

namespace Frame

/-- What a frame holds. -/
def contents : Frame → List Value
  | .items done => done
  | .members done _ => done.map (·.2)

/-- Whether a frame has no key twice. -/
def isKeyed : Frame → Bool
  | .items _ => true
  | .members done _ => (done.map (·.1)).Nodup

/-- The container that a frame becomes with its last value. -/
def closed : Frame → Value → Value
  | .items done, v => .array (v :: done).reverse
  | .members done k, v => .object (Members.put k v done)

/-- The frame with one more value; `k` is the next key. -/
def push (k : String) : Frame → Value → Frame
  | .items done, v => .items (v :: done)
  | .members done k', v => .members (Members.put k' v done) k

end Frame

/-- Every value of a frame fits, and no frame has a key twice. -/
inductive Sound : List Frame → Prop where
  | nil : Sound []
  | cons {f : Frame} {stack : List Frame} (room : stack.length < maxDepth)
      (keyed : f.isKeyed = true) (fit : ∀ v ∈ f.contents, Fits (f :: stack) v)
      (outer : Sound stack) : Sound (f :: stack)

/-! ## One step of the reader -/

theorem scalar_ok {r : Text.Suffix cs} (h : scalar c cs = .ok (v, r)) :
    v.depth = 0 ∧ v.all Value.isKeyed = true := by
  unfold scalar at h
  split at h
  case h_6 =>
    split_ifs at h
    obtain ⟨a, -, ha⟩ := of_map_eq_ok h
    cases ha
    exact ⟨rfl, rfl⟩
  all_goals
    obtain ⟨a, -, ha⟩ := of_map_eq_ok h
    cases ha
    exact ⟨rfl, rfl⟩

/-- A reader that succeeds has closed a value, or opened a container. -/
theorem value_ok (hroom : stack.length ≤ maxDepth) (h : value stack cs = .ok result) :
    (∃ v after, after.length < cs.length ∧ Fits stack v ∧ close stack v after = .ok result) ∨
      ∃ f after, after.length < cs.length ∧ stack.length < maxDepth ∧ f.isKeyed = true ∧
        f.contents = [] ∧ value (f :: stack) after = .ok result := by
  rw [value] at h
  split at h
  · cases h
  next c rest _ =>
  have hrest := rest.2
  split_ifs at h with hlist hfull hobject hfull
  · have hlt : stack.length < maxDepth := by omega
    split at h
    · cases h
    next d rest' _ =>
    have hrest' := rest'.2
    split_ifs at h
    · exact .inl ⟨.array [], _, by omega, ⟨rfl, hlt⟩, h⟩
    · exact .inr ⟨.items [], _, hrest, hlt, rfl, rfl, h⟩
  · have hlt : stack.length < maxDepth := by omega
    split at h
    · cases h
    next d rest' _ =>
    have hrest' := rest'.2
    split_ifs at h
    · exact .inl ⟨.object [], _, by omega, ⟨rfl, hlt⟩, h⟩
    · split at h
      · cases h
      next k after _ =>
      have hafter := after.2
      exact .inr ⟨.members [] k, _, by omega, hlt, rfl, rfl, h⟩
  · split at h
    · cases h
    next v rest' hs =>
    have hrest' := rest'.2
    obtain ⟨hdepth, hkeyed⟩ := scalar_ok hs
    exact .inl ⟨v, _, by omega, ⟨hkeyed, by omega⟩, h⟩

/-- A reader that succeeds closes the inmost container, or goes on inside it. -/
theorem close_ok (h : close (f :: stack) v cs = .ok result) :
    (∃ after, after.length < cs.length ∧ close stack (f.closed v) after = .ok result) ∨
      ∃ k after, after.length < cs.length ∧ value (f.push k v :: stack) after = .ok result := by
  cases f with
  | items done =>
    rw [close] at h
    split at h
    · cases h
    next c rest _ =>
    have hrest := rest.2
    split_ifs at h
    · exact .inl ⟨_, hrest, h⟩
    · split at h
      · cases h
      split_ifs at h
      exact .inr ⟨"", _, hrest, h⟩
  | members done k =>
    rw [close] at h
    split at h
    · cases h
    next c rest _ =>
    have hrest := rest.2
    split_ifs at h
    · exact .inl ⟨_, hrest, h⟩
    · split at h
      · cases h
      next d rest' _ =>
      have hrest' := rest'.2
      split_ifs at h
      split at h
      · cases h
      next k' after _ =>
      have hafter := after.2
      exact .inr ⟨k', _, by omega, h⟩

/-! ## A whole run of the reader -/

theorem Sound.length_le : ∀ {stack : List Frame}, Sound stack → stack.length ≤ maxDepth
  | _, .nil => Nat.zero_le _
  | _, .cons room _ _ _ => room

theorem mem_contents_push {k : String} (hw : w ∈ (f.push k v).contents) :
    w = v ∨ w ∈ f.contents := by
  cases f with
  | items done => exact List.mem_cons.1 hw
  | members done k' =>
    obtain ⟨m, hm, rfl⟩ := List.mem_map.1 hw
    rcases Members.mem_put hm with rfl | hm
    · exact .inl rfl
    · exact .inr (List.mem_map.2 ⟨m, hm, rfl⟩)

theorem isKeyed_push {k : String} (h : f.isKeyed = true) : (f.push k v).isKeyed = true := by
  cases f with
  | items done => rfl
  | members done k' => exact decide_eq_true (Members.nodup_put (of_decide_eq_true h))

theorem fits_closed {k : String} (hroom : stack.length < maxDepth) (hkeyed : f.isKeyed = true)
    (hfit : ∀ w ∈ (f.push k v).contents, Fits (f :: stack) w) : Fits stack (f.closed v) := by
  have hdepth {w : Value} (hw : w ∈ (f.push k v).contents) :
      w.depth ≤ maxDepth - stack.length - 1 := by
    have := (hfit w hw).shallow
    rw [List.length_cons] at this
    omega
  cases f with
  | items done =>
    have hmem {w : Value} (hw : w ∈ (v :: done).reverse) : w ∈ v :: done := List.mem_reverse.1 hw
    have hall : Value.allItems Value.isKeyed (v :: done).reverse = true :=
      (Value.allItems_eq_true _ _).2 fun w hw => (hfit w (hmem hw)).keyed
    have hle : Value.depthItems (v :: done).reverse ≤ maxDepth - stack.length - 1 :=
      (Value.depthItems_le _ _).2 fun w hw => hdepth (hmem hw)
    exact ⟨by rw [Frame.closed, Value.all, hall]; rfl, by rw [Frame.closed, Value.depth]; omega⟩
  | members done k' =>
    have hmem {m : String × Value} (hm : m ∈ Members.put k' v done) :
        m.2 ∈ (Members.put k' v done).map (·.2) := List.mem_map.2 ⟨m, hm, rfl⟩
    have hnodup : ((Members.put k' v done).map (·.1)).Nodup :=
      Members.nodup_put (of_decide_eq_true hkeyed)
    have hall : Value.allMembers Value.isKeyed (Members.put k' v done) = true :=
      (Value.allMembers_eq_true _ _).2 fun m hm => (hfit m.2 (hmem hm)).keyed
    have hle : Value.depthMembers (Members.put k' v done) ≤ maxDepth - stack.length - 1 :=
      (Value.depthMembers_le _ _).2 fun m hm => hdepth (hmem hm)
    refine ⟨?_, by rw [Frame.closed, Value.depth]; omega⟩
    rw [Frame.closed, Value.all, hall, Value.isKeyed, decide_eq_true hnodup]
    rfl

mutual

theorem value_fits {stack : List Frame} {cs : List Char} (hs : Sound stack)
    (h : value stack cs = .ok result) : Fits [] result.1 := by
  obtain ⟨v, after, hlt, hv, h⟩ | ⟨f, after, hlt, hroom, hkeyed, hempty, h⟩ :=
    value_ok hs.length_le h
  · exact close_fits hs hv h
  · exact value_fits (.cons hroom hkeyed (by simp [hempty]) hs) h
termination_by (cs.length, 0)

theorem close_fits {stack : List Frame} {v : Value} {cs : List Char} (hs : Sound stack)
    (hv : Fits stack v) (h : close stack v cs = .ok result) : Fits [] result.1 := by
  cases hs with
  | nil =>
    rw [close] at h
    cases h
    exact hv
  | @cons f stack hroom hkeyed hfit houter =>
    have hpush {k : String} : ∀ w ∈ (f.push k v).contents, Fits (f :: stack) w := by
      intro w hw
      rcases mem_contents_push hw with rfl | hw
      · exact hv
      · exact hfit w hw
    obtain ⟨after, hlt, h⟩ | ⟨k, after, hlt, h⟩ := close_ok h
    · exact close_fits houter (fits_closed (k := "") hroom hkeyed hpush) h
    · have hsound : Sound (f.push k v :: stack) :=
        .cons hroom (isKeyed_push hkeyed) (fun w hw => ⟨(hpush w hw).1, (hpush w hw).2⟩) houter
      exact value_fits hsound h
termination_by (cs.length, 1)

end

end Reader

/-- A text spells only values that have each key once and are nested fewer than 128 levels. -/
theorem parse_keyed {text : String} {v : Value} (h : parse text = .ok v) :
    v.all Value.isKeyed = true ∧ v.depth < 128 := by
  obtain ⟨⟨w, rest⟩, hread, h⟩ := of_bind_eq_ok (of_mapError_eq_ok h)
  obtain ⟨-, -, h⟩ := of_bind_eq_ok h
  cases h
  obtain ⟨hkeyed, hdepth⟩ := Reader.value_fits .nil hread
  exact ⟨hkeyed, by simpa [Reader.maxDepth, Nat.lt_succ_iff] using hdepth⟩

end Cimi.Json
