import Cimi.Proofs.Json.Inside

/-!
# Values are read as they were written

A reader inside open containers that meets a written value goes on behind it with that value,
whatever its layout: between the parts of a value there is only white space (`Reader.value_write`).
So a written value that is exact and keyed, and nested fewer than 128 levels, is read back, the
order of its keys included (`parse_write`).
-/

namespace Cimi.Json

/-- What a reader keeps as it is written. -/
def Value.isKept (v : Value) : Bool := v.isExact && v.isKeyed

namespace Reader

variable {b cs rest after : List Char} {c : Char} {stack : List Frame} {done : List Value}
  {members : Members} {k : String} {v : Value}

/-! ## What the reader meets first -/

/-- What comes first but for white space, and what follows it. -/
def first (cs : List Char) : Option (Char × List Char) :=
  (next cs).map (Prod.map id Subtype.val)

theorem next_of_first (h : first cs = some (c, rest)) : ∃ h, next cs = some (c, ⟨rest, h⟩) := by
  obtain ⟨⟨d, r, hr⟩, hn, hd⟩ := Option.map_eq_some_iff.1 h
  cases hd
  exact ⟨hr, hn⟩

/-- White space is passed over. -/
theorem first_blank (hb : ∀ c ∈ b, isSpace c = true) (hc : isSpace c = false) (cs : List Char) :
    first (b ++ c :: cs) = some (c, cs) := by
  induction b with
  | nil => simp [first, next, hc, Text.Shorter.tail]
  | cons d b ih =>
    have hd : isSpace d = true := hb d (by simp)
    have ih := ih fun c hc => hb c (by simp [hc])
    obtain ⟨_, hn⟩ := next_of_first ih
    simp [first, next, hd, hn, Text.Shorter.cons]

theorem first_cons (hc : isSpace c = false) (cs : List Char) : first (c :: cs) = some (c, cs) :=
  first_blank (b := []) nofun hc cs

/-! ## One step of the reader -/

theorem value_scalar (hf : first cs = some (c, rest)) (hlist : c ≠ '[') (hobject : c ≠ '\x7b')
    (hs : ∃ h, scalar c rest = .ok (v, ⟨after, h⟩)) : value stack cs = close stack v after := by
  obtain ⟨_, hn⟩ := next_of_first hf
  obtain ⟨_, hs⟩ := hs
  rw [value, hn]
  simp only [if_neg hlist, if_neg hobject, hs]

theorem value_emptyList (hdepth : stack.length < maxDepth) (hf : first cs = some ('[', rest))
    (hf' : first rest = some (']', after)) : value stack cs = close stack (.array []) after := by
  obtain ⟨_, hn⟩ := next_of_first hf
  obtain ⟨_, hn'⟩ := next_of_first hf'
  rw [value, hn]
  simp only [if_pos, if_neg (Nat.ne_of_lt hdepth), hn']

theorem value_list (hdepth : stack.length < maxDepth) (hf : first cs = some ('[', rest))
    (hf' : first rest = some (c, after)) (hc : c ≠ ']') :
    value stack cs = value (.items [] :: stack) rest := by
  obtain ⟨_, hn⟩ := next_of_first hf
  obtain ⟨_, hn'⟩ := next_of_first hf'
  rw [value, hn]
  simp only [if_pos, if_neg (Nat.ne_of_lt hdepth), hn', if_neg hc]

theorem value_emptyObject (hdepth : stack.length < maxDepth) (hf : first cs = some ('\x7b', rest))
    (hf' : first rest = some ('\x7d', after)) :
    value stack cs = close stack (.object []) after := by
  obtain ⟨_, hn⟩ := next_of_first hf
  obtain ⟨_, hn'⟩ := next_of_first hf'
  rw [value, hn]
  simp [Nat.ne_of_lt hdepth, hn']

theorem value_object {member h} (hdepth : stack.length < maxDepth)
    (hf : first cs = some ('\x7b', rest)) (hf' : first rest = some ('"', after))
    (hk : key after = .ok (k, ⟨member, h⟩)) :
    value stack cs = value (.members [] k :: stack) member := by
  obtain ⟨_, hn⟩ := next_of_first hf
  obtain ⟨_, hn'⟩ := next_of_first hf'
  rw [value, hn]
  simp [Nat.ne_of_lt hdepth, hn', hk]

theorem close_endList (hf : first cs = some (']', rest)) :
    close (.items done :: stack) v cs = close stack (.array (v :: done).reverse) rest := by
  obtain ⟨_, hn⟩ := next_of_first hf
  rw [close, hn]
  simp only [if_pos]

theorem close_nextItem (hf : first cs = some (',', rest)) (hf' : first rest = some (c, after))
    (hc : c ≠ ']') :
    close (.items done :: stack) v cs = value (.items (v :: done) :: stack) rest := by
  obtain ⟨_, hn⟩ := next_of_first hf
  obtain ⟨_, hn'⟩ := next_of_first hf'
  rw [close, hn]
  simp [hn', hc]

theorem close_endObject (hf : first cs = some ('\x7d', rest)) :
    close (.members members k :: stack) v cs =
      close stack (.object (Members.put k v members)) rest := by
  obtain ⟨_, hn⟩ := next_of_first hf
  rw [close, hn]
  simp only [if_pos]

theorem close_nextMember {k' : String} {member h} (hf : first cs = some (',', rest))
    (hf' : first rest = some ('"', after)) (hk : key after = .ok (k', ⟨member, h⟩)) :
    close (.members members k :: stack) v cs =
      value (.members (Members.put k v members) k' :: stack) member := by
  obtain ⟨_, hn⟩ := next_of_first hf
  obtain ⟨_, hn'⟩ := next_of_first hf'
  rw [close, hn]
  simp [hn', hk]

/-! ## A written value -/

theorem isSpace_lineBreak (l : Layout) : ∀ c ∈ l.lineBreak, isSpace c = true := by
  cases l with
  | none => nofun
  | some level =>
    intro c hc
    rcases List.mem_cons.1 hc with rfl | hc
    · rfl
    · obtain rfl := List.eq_of_mem_replicate hc
      rfl

theorem colon_eq_cons (l : Layout) : ∃ b, l.colon = ':' :: b ∧ ∀ c ∈ b, isSpace c = true := by
  cases l with
  | none => exact ⟨[], rfl, nofun⟩
  | some level => exact ⟨[' '], rfl, by simp [isSpace]⟩

/-- A written key is read with its colon. -/
theorem key_quote (k : String) (l : Layout) (cs : List Char) :
    ∃ b, (∀ c ∈ b, isSpace c = true) ∧
      ∃ after h, quote k ++ (l.colon ++ cs) = '"' :: after ∧ key after = .ok (k, ⟨b ++ cs, h⟩) := by
  obtain ⟨b, hcolon, hb⟩ := colon_eq_cons l
  obtain ⟨h, hs⟩ := string_escaped k (':' :: (b ++ cs))
  have hn : next (':' :: (b ++ cs)) = some (':', .tail ':' (b ++ cs)) := rfl
  refine ⟨b, hb, _, Nat.lt_trans (Nat.lt_succ_self _) h, ?_, ?_⟩
  · rw [quote, hcolon]
    simp
  · rw [key, hs]
    simp only [hn]
    rfl

theorem quote_append (s : String) (rest : List Char) :
    quote s ++ rest = '"' :: (s.toList.flatMap escapeChar ++ '"' :: rest) := by
  simp [quote]

theorem notMem_of_nodup {ms : Members} (h : ((members ++ (k, v) :: ms).map (·.1)).Nodup) :
    k ∉ members.map (·.1) := by
  intro hk
  rw [List.map_append, List.map_cons, List.nodup_append] at h
  exact h.2.2 k hk k (by simp) rfl

theorem endsNumber_nil : EndsNumber [] := nofun

theorem endsNumber_cons (hc : c.isDigit = false ∧ c ≠ '.' ∧ c ≠ 'e' ∧ c ≠ 'E') (cs : List Char) :
    EndsNumber (c :: cs) := by
  intro d hd
  obtain rfl : c = d := by simpa using hd
  exact hc

theorem endsNumber_blank (hb : ∀ c ∈ b, isSpace c = true) (hrest : EndsNumber rest) :
    EndsNumber (b ++ rest) := by
  rcases b with _ | ⟨c, b⟩
  · exact hrest
  · have hc : isSpace c = true := hb c (by simp)
    refine endsNumber_cons ?_ _
    simp only [isSpace, Bool.or_eq_true, decide_eq_true_eq] at hc
    rcases hc with ((rfl | rfl) | rfl) | rfl <;> decide

theorem endsNumber_writeItems (l : Layout) (vs : List Value) (hrest : EndsNumber rest) :
    EndsNumber (writeItems l vs ++ rest) := by
  cases vs with
  | nil => exact hrest
  | cons v vs => exact endsNumber_cons (by decide) _

theorem endsNumber_writeMembers (l : Layout) (ms : Members) (hrest : EndsNumber rest) :
    EndsNumber (writeMembers l ms ++ rest) := by
  cases ms with
  | nil => exact hrest
  | cons m ms => exact endsNumber_cons (by decide) _

theorem isSpace_of_isDigit (hc : c.isDigit = true) : isSpace c = false := by
  by_contra h
  simp only [isSpace, Bool.or_eq_true, decide_eq_true_eq, Bool.not_eq_false] at h
  rcases h with ((rfl | rfl) | rfl) | rfl <;> exact absurd hc (by decide)

theorem writeInt_eq_cons (z : Int) :
    ∃ c cs, writeInt z = c :: cs ∧ (c = '-' ∨ c.isDigit = true) := by
  unfold writeInt
  split_ifs with hz
  · obtain ⟨c, ds, hdigits, hc, -⟩ := digits_eq_cons z.toNat
    exact ⟨c, ds, hdigits, .inr hc⟩
  · exact ⟨'-', _, rfl, .inl rfl⟩

/-- A written value begins with neither white space nor the end of a list. -/
theorem write_eq_cons (l : Layout) (hv : v.isExact = true) :
    ∃ c cs, write l v = c :: cs ∧ isSpace c = false ∧ c ≠ ']' := by
  cases v with
  | null => exact ⟨_, _, rfl, rfl, by decide⟩
  | bool x => cases x <;> exact ⟨_, _, rfl, rfl, by decide⟩
  | number n =>
    cases n with
    | double d => cases hv
    | int z =>
      obtain ⟨c, cs, hw, hc⟩ := writeInt_eq_cons z
      refine ⟨c, cs, hw, ?_⟩
      rcases hc with rfl | hc
      · exact ⟨rfl, by decide⟩
      · exact ⟨isSpace_of_isDigit hc, by rintro rfl; cases hc⟩
  | string s => exact ⟨_, _, rfl, rfl, by decide⟩
  | array vs => cases vs <;> exact ⟨_, _, rfl, rfl, by decide⟩
  | object ms => rcases ms with _ | ⟨⟨k, v⟩, ms⟩ <;> exact ⟨_, _, rfl, rfl, by decide⟩

theorem first_write (l : Layout) (hv : v.isExact = true) (hb : ∀ c ∈ b, isSpace c = true)
    (rest : List Char) :
    ∃ c after, first (b ++ (write l v ++ rest)) = some (c, after) ∧ c ≠ ']' := by
  obtain ⟨c, cs, hw, hspace, hc⟩ := write_eq_cons l hv
  refine ⟨c, cs ++ rest, ?_, hc⟩
  rw [hw]
  exact first_blank hb hspace _

theorem isExact_of_all (h : v.all Value.isKept = true) : v.isExact = true :=
  (Bool.and_eq_true_iff.1 (Value.of_all h)).1

mutual

theorem value_write (l : Layout) : ∀ (v : Value) {b rest : List Char} {stack : List Frame},
    v.all Value.isKept = true → stack.length + v.depth ≤ maxDepth →
    (∀ c ∈ b, isSpace c = true) → EndsNumber rest →
    value stack (b ++ (write l v ++ rest)) = close stack v rest
  | .null, b, rest, stack, _, _, hb, _ =>
    value_scalar (first_blank hb rfl _) (by decide) (by decide) ⟨by simp; omega, rfl⟩
  | .bool true, b, rest, stack, _, _, hb, _ =>
    value_scalar (first_blank hb rfl _) (by decide) (by decide) ⟨by simp; omega, rfl⟩
  | .bool false, b, rest, stack, _, _, hb, _ =>
    value_scalar (first_blank hb rfl _) (by decide) (by decide) ⟨by simp; omega, rfl⟩
  | .number (.double d), b, rest, stack, hv, _, _, _ => by cases hv
  | .number (.int z), b, rest, stack, hv, _, hb, hrest => by
    have hz : InRange z := of_decide_eq_true (isExact_of_all hv)
    obtain ⟨c, cs, hw, hc, hs⟩ := scalar_writeInt hz hrest
    have hspace : isSpace c = false := by
      rcases hc with rfl | hc
      · rfl
      · exact isSpace_of_isDigit hc
    rw [write, writeNumber, hw]
    refine value_scalar (first_blank hb hspace _) ?_ ?_ hs
    · rintro rfl
      simp at hc
    · rintro rfl
      simp at hc
  | .string s, b, rest, stack, _, _, hb, _ => by
    obtain ⟨h, hs⟩ := string_escaped s rest
    rw [write, quote_append]
    refine value_scalar (first_blank hb rfl _) (by decide) (by decide) ⟨Nat.le_of_lt h, ?_⟩
    rw [scalar, hs]
    rfl
  | .array [], b, rest, stack, _, hdepth, hb, _ =>
    value_emptyList (by simp [Value.depth] at hdepth; omega) (first_blank hb rfl _)
      (first_cons rfl _)
  | .array (v :: vs), b, rest, stack, hv, hdepth, hb, _ => by
    simp only [Value.all, Value.allItems, Bool.and_eq_true] at hv
    obtain ⟨-, hv, hvs⟩ := hv
    simp only [Value.depth, Value.depthItems] at hdepth
    have hspace := isSpace_lineBreak l.inner
    obtain ⟨c, after, hf, hc⟩ := first_write l.inner (isExact_of_all hv) hspace
      (writeItems l.inner vs ++ (l.lineBreak ++ ']' :: rest))
    have hrest := endsNumber_writeItems l.inner vs
      (endsNumber_blank (isSpace_lineBreak l) (endsNumber_cons (c := ']') (by decide) rest))
    calc value stack (b ++ (write l (.array (v :: vs)) ++ rest))
        = value stack (b ++ '[' :: (l.inner.lineBreak ++ (write l.inner v ++
            (writeItems l.inner vs ++ (l.lineBreak ++ ']' :: rest))))) := by simp [write]
      _ = value (.items [] :: stack) (l.inner.lineBreak ++ (write l.inner v ++
            (writeItems l.inner vs ++ (l.lineBreak ++ ']' :: rest)))) :=
          value_list (by omega) (first_blank hb rfl _) hf hc
      _ = close (.items [] :: stack) v (writeItems l.inner vs ++ (l.lineBreak ++ ']' :: rest)) :=
          value_write l.inner v hv (by simp only [List.length_cons]; omega) hspace hrest
      _ = close stack (.array (v :: vs)) rest :=
          close_writeItems l.inner vs hvs (by omega) (isSpace_lineBreak l)
  | .object [], b, rest, stack, _, hdepth, hb, _ =>
    value_emptyObject (by simp [Value.depth] at hdepth; omega) (first_blank hb rfl _)
      (first_cons rfl _)
  | .object ((k, v) :: ms), b, rest, stack, hv, hdepth, hb, _ => by
    have hkeys : (((k, v) :: ms).map (·.1)).Nodup :=
      of_decide_eq_true (Bool.and_eq_true_iff.1 (Value.of_all hv)).2
    simp only [Value.all, Value.allMembers, Bool.and_eq_true] at hv
    obtain ⟨-, hv, hms⟩ := hv
    simp only [Value.depth, Value.depthMembers] at hdepth
    have hrest := endsNumber_writeMembers l.inner ms
      (endsNumber_blank (isSpace_lineBreak l) (endsNumber_cons (c := '\x7d') (by decide) rest))
    obtain ⟨b', hb', after, h, hquote, hkey⟩ := key_quote k l
      (write l.inner v ++ (writeMembers l.inner ms ++ (l.lineBreak ++ '\x7d' :: rest)))
    have hf := first_blank (isSpace_lineBreak l.inner) (c := '"') rfl after
    calc value stack (b ++ (write l (.object ((k, v) :: ms)) ++ rest))
        = value stack (b ++ '\x7b' :: (l.inner.lineBreak ++ (quote k ++ (l.colon ++
            (write l.inner v ++ (writeMembers l.inner ms ++
              (l.lineBreak ++ '\x7d' :: rest))))))) := by simp [write]
      _ = value (.members [] k :: stack) (b' ++ (write l.inner v ++
            (writeMembers l.inner ms ++ (l.lineBreak ++ '\x7d' :: rest)))) := by
          rw [hquote]
          exact value_object (by omega) (first_blank hb rfl _) hf hkey
      _ = close (.members [] k :: stack) v
            (writeMembers l.inner ms ++ (l.lineBreak ++ '\x7d' :: rest)) :=
          value_write l.inner v hv (by simp only [List.length_cons]; omega) hb' hrest
      _ = close stack (.object ((k, v) :: ms)) rest :=
          close_writeMembers l.inner ms hms (by omega) hkeys (isSpace_lineBreak l)

theorem close_writeItems (l : Layout) : ∀ (vs : List Value) {v : Value} {done : List Value}
    {b rest : List Char} {stack : List Frame},
    Value.allItems Value.isKept vs = true → stack.length + Value.depthItems vs < maxDepth →
    (∀ c ∈ b, isSpace c = true) →
    close (.items done :: stack) v (writeItems l vs ++ (b ++ ']' :: rest)) =
      close stack (.array (done.reverse ++ v :: vs)) rest
  | [], v, done, b, rest, stack, _, _, hb => by
    rw [writeItems, List.nil_append, close_endList (first_blank hb rfl _)]
    simp
  | w :: ws, v, done, b, rest, stack, hvs, hdepth, hb => by
    simp only [Value.allItems, Bool.and_eq_true] at hvs
    obtain ⟨hw, hws⟩ := hvs
    simp only [Value.depthItems] at hdepth
    have hspace := isSpace_lineBreak l
    obtain ⟨c, after, hf, hc⟩ := first_write l (isExact_of_all hw) hspace
      (writeItems l ws ++ (b ++ ']' :: rest))
    have hrest := endsNumber_writeItems l ws
      (endsNumber_blank hb (endsNumber_cons (c := ']') (by decide) rest))
    calc close (.items done :: stack) v (writeItems l (w :: ws) ++ (b ++ ']' :: rest))
        = close (.items done :: stack) v (',' :: (l.lineBreak ++ (write l w ++
            (writeItems l ws ++ (b ++ ']' :: rest))))) := by simp [writeItems]
      _ = value (.items (v :: done) :: stack) (l.lineBreak ++ (write l w ++
            (writeItems l ws ++ (b ++ ']' :: rest)))) := close_nextItem (first_cons rfl _) hf hc
      _ = close (.items (v :: done) :: stack) w (writeItems l ws ++ (b ++ ']' :: rest)) :=
          value_write l w hw (by simp only [List.length_cons]; omega) hspace hrest
      _ = close stack (.array ((v :: done).reverse ++ w :: ws)) rest :=
          close_writeItems l ws hws (by omega) hb
      _ = close stack (.array (done.reverse ++ v :: w :: ws)) rest := by simp

theorem close_writeMembers (l : Layout) : ∀ (ms : List (String × Value)) {k : String} {v : Value}
    {members : Members} {b rest : List Char} {stack : List Frame},
    Value.allMembers Value.isKept ms = true → stack.length + Value.depthMembers ms < maxDepth →
    ((members ++ (k, v) :: ms).map (·.1)).Nodup → (∀ c ∈ b, isSpace c = true) →
    close (.members members k :: stack) v (writeMembers l ms ++ (b ++ '\x7d' :: rest)) =
      close stack (.object (members ++ (k, v) :: ms)) rest
  | [], k, v, members, b, rest, stack, _, _, hkeys, hb => by
    rw [writeMembers, List.nil_append, close_endObject (first_blank hb rfl _),
      Members.put_of_notMem (notMem_of_nodup hkeys)]
  | (k', w) :: ms, k, v, members, b, rest, stack, hms, hdepth, hkeys, hb => by
    simp only [Value.allMembers, Bool.and_eq_true] at hms
    obtain ⟨hw, hms⟩ := hms
    simp only [Value.depthMembers] at hdepth
    have hrest := endsNumber_writeMembers l ms
      (endsNumber_blank hb (endsNumber_cons (c := '\x7d') (by decide) rest))
    obtain ⟨b', hb', after, h, hquote, hkey⟩ := key_quote k' l
      (write l w ++ (writeMembers l ms ++ (b ++ '\x7d' :: rest)))
    have hf := first_blank (isSpace_lineBreak l) (c := '"') rfl after
    calc close (.members members k :: stack) v
          (writeMembers l ((k', w) :: ms) ++ (b ++ '\x7d' :: rest))
        = close (.members members k :: stack) v (',' :: (l.lineBreak ++ (quote k' ++ (l.colon ++
            (write l w ++ (writeMembers l ms ++ (b ++ '\x7d' :: rest))))))) := by
          simp [writeMembers]
      _ = value (.members (members ++ [(k, v)]) k' :: stack) (b' ++ (write l w ++
            (writeMembers l ms ++ (b ++ '\x7d' :: rest)))) := by
          rw [hquote, close_nextMember (first_cons rfl _) hf hkey,
            Members.put_of_notMem (notMem_of_nodup hkeys)]
      _ = close (.members (members ++ [(k, v)]) k' :: stack) w
            (writeMembers l ms ++ (b ++ '\x7d' :: rest)) :=
          value_write l w hw (by simp only [List.length_cons]; omega) hb' hrest
      _ = close stack (.object (members ++ [(k, v)] ++ (k', w) :: ms)) rest :=
          close_writeMembers l ms hms (by omega) (by simpa using hkeys) hb
      _ = close stack (.object (members ++ (k, v) :: (k', w) :: ms)) rest := by simp

end

end Reader

/-- A value is read back from each way of writing it. -/
theorem parse_write (l : Layout) {v : Value} (hexact : v.all Value.isExact = true)
    (hkeyed : v.all Value.isKeyed = true) (hdepth : v.depth < 128) :
    parseChars (write l v) = .ok v := by
  have hkept : v.all Value.isKept = true := by
    rw [← Bool.and_eq_true_iff.2 ⟨hexact, hkeyed⟩, ← Value.all_and]
    rfl
  have hread : Reader.value [] ([] ++ (write l v ++ [])) = Reader.close [] v [] :=
    Reader.value_write l v hkept (by simpa [Reader.maxDepth] using Nat.le_of_lt_succ hdepth) nofun
      Reader.endsNumber_nil
  rw [List.nil_append, List.append_nil, Reader.close] at hread
  rw [parseChars, hread]
  rfl

theorem parse_pretty {v : Value} (hexact : v.all Value.isExact = true)
    (hkeyed : v.all Value.isKeyed = true) (hdepth : v.depth < 128) : parse v.pretty = .ok v := by
  rw [parse, Value.pretty, String.toList_ofList]
  exact parse_write _ hexact hkeyed hdepth

end Cimi.Json
