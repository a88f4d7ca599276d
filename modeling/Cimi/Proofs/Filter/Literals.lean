import Cimi.Proofs.Filter.Blames
import Cimi.Proofs.Outcome

/-!
# Literals by themselves

A text is a literal by itself if it is one token that spells it (`IsLiteral`), and it is no more
than one literal (`IsLiteral.unique`).  Each reader for a kind of literals answers the literal of
its kind that the text is (`readAs_ok_iff`).  The reading of a filter comes to the same literal when
the text stands behind an attribute and an operator (`parse_named_iff`).
-/

namespace Cimi.Filter

open Text (isBlank)

/-- The kinds of literals. -/
inductive Literal.Kind where
  | int
  | bool
  | string
  | date
deriving DecidableEq, Repr

/-- The kind of a literal. -/
def Literal.kind : Literal → Literal.Kind
  | .int _ => .int
  | .bool _ => .bool
  | .string _ => .string
  | .date _ _ => .date

/-- A text without its blanks. -/
def unspaced (text : String) : String := String.ofList (text.toList.filter (!isBlank ·))

/-- The literal of a kind that a text is; a date keeps the text, without its blanks. -/
def readAs (kind : Literal.Kind) (text : String) : Except Error Literal :=
  match kind with
  | .int => (parseInt text).map .int
  | .bool => (parseBool text).map .bool
  | .string => (parseString text).map .string
  | .date => (parseDate text).map (.date (unspaced text))

/-- A text is one token, which spells a literal. -/
def IsLiteral (text : String) (l : Literal) : Prop :=
  ∃ t, lex text = .ok [t] ∧ SpellsLiteral [t.token] l

section

variable {α : Type} {expected : Expected} {convert : Token → Option (Except Error α)} {a : α}
variable {t : Token} {ts : List Token} {text : String} {l m : Literal}

theorem SpellsLiteral.exists_token (h : SpellsLiteral ts l) : ∃ t, ts = [t] := by
  cases h <;> exact ⟨_, rfl⟩

theorem SpellsLiteral.unique (hl : SpellsLiteral ts l) (hm : SpellsLiteral ts m) : l = m := by
  cases hl with
  | int _ =>
    cases hm
    rfl
  | string s =>
    cases hm
    rfl
  | date hi =>
    cases hm with
    | date hi' => rw [Except.ok.inj (hi.symm.trans hi')]
  | yes =>
    generalize hword : "true" = word at hm
    cases hm with
    | yes => rfl
    | no => exact absurd hword (by decide)
  | no =>
    generalize hword : "false" = word at hm
    cases hm with
    | yes => exact absurd hword (by decide)
    | no => rfl

theorem IsLiteral.unique (hl : IsLiteral text l) (hm : IsLiteral text m) : l = m := by
  obtain ⟨t, hlex, hl⟩ := hl
  obtain ⟨u, hlex', hm⟩ := hm
  cases hlex.symm.trans hlex'
  exact hl.unique hm

/-! ## What the readers answer -/

/-- A text is read as one token if it has no other and that token has a value. -/
theorem single_ok_iff : single expected convert text = .ok a ↔
    ∃ t, lex text = .ok [t] ∧ convert t.token = some (.ok a) := by
  constructor
  · intro h
    obtain ⟨ts, hlex, h⟩ := of_bind_eq_ok h
    rcases ts with _ | ⟨t, rest⟩
    · cases h
    obtain ⟨b, hvalue, h⟩ := of_bind_eq_ok h
    split_ifs at h with hrest
    cases h
    obtain rfl := List.isEmpty_iff.1 hrest
    refine ⟨t, hlex, ?_⟩
    rcases hconvert : convert t.token with _ | value <;> rw [hconvert] at hvalue <;> cases hvalue
    rfl
  · rintro ⟨t, hlex, hvalue⟩
    rw [single, hlex]
    simp only [bind, Except.bind, hvalue]
    rfl

theorem spellsLiteral_int_iff {n : Nat} : SpellsLiteral [t] (.int n) ↔
    ∃ digits, t = .int digits ∧ intOfDigits digits = .ok n := by
  constructor
  · rintro ⟨hle⟩
    exact ⟨_, rfl, if_pos hle⟩
  · rintro ⟨digits, rfl, h⟩
    obtain ⟨rfl, hle⟩ := intOfDigits_ok h
    exact .int hle

theorem spellsLiteral_bool_iff {b : Bool} : SpellsLiteral [t] (.bool b) ↔
    t = .word "true" ∧ b = true ∨ t = .word "false" ∧ b = false := by
  constructor
  · rintro (_ | _)
    · exact .inl ⟨rfl, rfl⟩
    · exact .inr ⟨rfl, rfl⟩
  · rintro (⟨rfl, rfl⟩ | ⟨rfl, rfl⟩)
    · exact .yes
    · exact .no

theorem spellsLiteral_string_iff {s : String} : SpellsLiteral [t] (.string s) ↔ t = .string s := by
  constructor
  · rintro ⟨⟩
    rfl
  · rintro rfl
    exact .string s

theorem spellsLiteral_date_iff {s : String} {i : Instant} : SpellsLiteral [t] (.date s i) ↔
    t = .date s ∧ instantOfText s = .ok i := by
  rw [instantOfText_ok]
  constructor
  · rintro ⟨⟩
    exact ⟨rfl, ‹_›⟩
  · rintro ⟨rfl, h⟩
    exact .date h

theorem parseInt_ok_iff {n : Nat} : parseInt text = .ok n ↔ IsLiteral text (.int n) := by
  refine single_ok_iff.trans (exists_congr fun t => and_congr_right fun _ => ?_)
  rw [spellsLiteral_int_iff]
  split <;> simp_all

theorem parseBool_ok_iff {b : Bool} : parseBool text = .ok b ↔ IsLiteral text (.bool b) := by
  refine single_ok_iff.trans (exists_congr fun t => and_congr_right fun _ => ?_)
  rw [spellsLiteral_bool_iff]
  split <;> simp_all [eq_comm]

theorem parseString_ok_iff {s : String} :
    parseString text = .ok s ↔ IsLiteral text (.string s) := by
  refine single_ok_iff.trans (exists_congr fun t => and_congr_right fun _ => ?_)
  rw [spellsLiteral_string_iff]
  split <;> simp_all

/-! ## The text of a date -/

/-- All that stands between the lexemes of a text is blank. -/
theorem filter_of_lexFrom {position : Nat} : ∀ (cs : List Char) {ts : List Lexeme},
    lexFrom position cs = .ok ts →
      cs.filter (!isBlank ·) = (ts.flatMap (·.text)).filter (!isBlank ·)
  | [], ts, h => by
    rw [lexFrom.eq_def] at h
    cases h
    rfl
  | c :: cs, ts, h => by
    rcases lexFrom_cons_ok h with ⟨hc, h⟩ | ⟨-, s, rest, -, hrest, rfl⟩
    · rw [List.filter_cons_of_neg (by simp [hc]), filter_of_lexFrom cs h]
    · calc (c :: cs).filter (!isBlank ·)
          = s.text.filter (!isBlank ·) ++ s.rest.filter (!isBlank ·) := by
            rw [← List.filter_append, s.append_rest]
        _ = _ := by rw [filter_of_lexFrom s.rest hrest, List.flatMap_cons, List.filter_append]
termination_by cs => cs.length
decreasing_by
  · exact Nat.lt_succ_self _
  · exact s.length_rest_lt

theorem isDateChar_of_isNumeral : ∀ {cs : List Char}, isNumeral cs = true →
    ∀ c ∈ cs, isDateChar c = true
  | c :: cs, h => by
    simp only [isNumeral, Bool.and_eq_true, List.all_eq_true] at h
    exact List.forall_mem_cons.2 ⟨isDateChar_of_isDigit h.1, h.2⟩

/-- A date is the whole text but for blanks. -/
theorem IsLiteral.eq_unspaced {s : String} {i : Instant} (h : IsLiteral text (.date s i)) :
    s = unspaced text := by
  obtain ⟨⟨start, spelled, token⟩, hlex, hspells⟩ := h
  obtain ⟨rfl, -⟩ := spellsLiteral_date_iff.1 hspells
  have hvalid : isDateLexeme s.toList = true :=
    isValid_of_lexFrom _ hlex (.date s) (List.mem_singleton_self _)
  have hspelled : s.toList = spelled :=
    (standsIn_of_lexFrom [] _ hlex _ (List.mem_singleton_self _)).date s rfl
  have hsolid : ∀ c ∈ s.toList, (!isBlank c) = true := fun c hc => by
    rw [isBlank_of_isDateChar (isDateChar_of_isNumeral (Bool.and_eq_true_iff.1 hvalid).1 c hc)]
    rfl
  rw [unspaced, filter_of_lexFrom _ hlex, List.flatMap_singleton, ← hspelled,
    List.filter_eq_self.2 hsolid, String.ofList_toList]

theorem parseDate_ok_iff {i : Instant} :
    parseDate text = .ok i ↔ IsLiteral text (.date (unspaced text) i) := by
  refine single_ok_iff.trans ⟨?_, ?_⟩
  · rintro ⟨t, hlex, h⟩
    split at h
    · rename_i s ht
      have hs : IsLiteral text (.date s i) :=
        ⟨t, hlex, spellsLiteral_date_iff.2 ⟨ht, Option.some.inj h⟩⟩
      exact hs.eq_unspaced ▸ hs
    all_goals cases h
  · rintro ⟨t, hlex, hspells⟩
    obtain ⟨ht, hi⟩ := spellsLiteral_date_iff.1 hspells
    exact ⟨t, hlex, by rw [ht]; exact congrArg some hi⟩

/-- Each reader answers the literal of its kind that the text is. -/
theorem readAs_ok_iff {kind : Literal.Kind} :
    readAs kind text = .ok l ↔ l.kind = kind ∧ IsLiteral text l := by
  have hmap {α : Type} {x : Except Error α} {f : α → Literal} :
      x.map f = .ok l ↔ ∃ a, x = .ok a ∧ f a = l :=
    ⟨of_map_eq_ok, by rintro ⟨a, rfl, rfl⟩; rfl⟩
  cases kind
  case int =>
    simp only [readAs, hmap, parseInt_ok_iff]
    cases l <;> simp [Literal.kind]
  case bool =>
    simp only [readAs, hmap, parseBool_ok_iff]
    cases l <;> simp [Literal.kind]
  case string =>
    simp only [readAs, hmap, parseString_ok_iff]
    cases l <;> simp [Literal.kind]
  case date =>
    simp only [readAs, hmap, parseDate_ok_iff]
    constructor
    · rintro ⟨i, h, rfl⟩
      exact ⟨rfl, h⟩
    · rintro ⟨hkind, h⟩
      cases l <;> cases hkind
      exact ⟨_, h.eq_unspaced ▸ h, by rw [h.eq_unspaced]⟩

/-! ## Literals in a filter -/

theorem lexFrom_named (cs : List Char) : lexFrom 0 ('a' :: '=' :: cs) =
    (lexFrom 2 cs).map fun ts => ⟨0, ['a'], .word "a"⟩ :: ⟨1, ['='], .op .eq⟩ :: ts := by
  have hname : scan 0 'a' ('=' :: cs) = .ok ⟨.word "a", ['a'], '=' :: cs, by simp, rfl⟩ := rfl
  have hop : scan 1 '=' cs = .ok (scanOne (.op .eq) '=' cs) := rfl
  have hsize : Text.Utf8.size ['a'] = 1 ∧ Text.Utf8.size ['='] = 1 := by decide
  rw [lexFrom_token (by decide) hname, hsize.1, lexFrom_token (by decide) hop]
  rcases h : lexFrom 2 cs with e | ts <;> simp [scanOne, hsize.2, h, Except.map]

theorem spells_named_iff : Spells .filter (.word "a" :: .op .eq :: ts)
    (.comparison ⟨.attribute (.name "a"), .eq, .literal l⟩) ↔ SpellsLiteral ts l := by
  constructor
  · intro h
    generalize htokens : .word "a" :: .op .eq :: ts = us at h
    cases h with
    | alone h =>
      cases h with
      | single h =>
        cases h with
        | parenthesized h => cases htokens
        | attributeFirst o ha hl =>
          cases ha
          cases htokens
          exact hl
  · intro h
    have ha : SpellsAttribute [.word "a"] (.name "a") := .name (by decide)
    exact (Spells.attributeFirst .eq ha h).single.alone

theorem parse_named_ok_iff :
    parse ("a=" ++ text) = .ok (.comparison ⟨.attribute (.name "a"), .eq, .literal l⟩) ↔
      IsLiteral text l := by
  have htext : ("a=" ++ text).toList = 'a' :: '=' :: text.toList := by simp
  rw [parse_ok_iff, lex, htext, lexFrom_named]
  constructor
  · rintro ⟨ts, hlex, hspells⟩
    obtain ⟨rest, hrest, rfl⟩ := of_map_eq_ok hlex
    have hl : SpellsLiteral (tokens rest) l := spells_named_iff.1 hspells
    obtain ⟨t, ht⟩ := hl.exists_token
    -- The place of the literal behind the operator makes no difference to its token.
    obtain ⟨us, hus, hsame⟩ := (cuts_iff 2).2 ⟨rest, hrest, ht⟩ 0
    obtain ⟨u, rfl, hu⟩ := List.map_eq_singleton_iff.1 hsame
    exact ⟨u, hus, by rwa [hu, ← ht]⟩
  · rintro ⟨t, hlex, hl⟩
    obtain ⟨rest, hrest, hsame⟩ := (cuts_iff 0).2 ⟨[t], hlex, rfl⟩ 2
    have hrestl : SpellsLiteral (tokens rest) l := hsame ▸ hl
    rw [hrest]
    exact ⟨_, rfl, spells_named_iff.2 hrestl⟩

/-- No two of the readers take the same text.  Behind an attribute and an equals sign it is read as
the literal that the reader for its kind answers. -/
theorem parse_named_iff (text : String) :
    (∀ k k', (readAs k text).isOk = true → (readAs k' text).isOk = true → k = k') ∧
      ∀ l, parse ("a=" ++ text) =
          .ok (.comparison ⟨.attribute (.name "a"), .eq, .literal l⟩) ↔
        readAs l.kind text = .ok l := by
  have hread {k : Literal.Kind} (h : (readAs k text).isOk = true) :
      ∃ l, l.kind = k ∧ IsLiteral text l := by
    rcases hk : readAs k text with e | l
    · rw [hk] at h
      cases h
    · exact ⟨l, readAs_ok_iff.1 hk⟩
  refine ⟨fun k k' hk hk' => ?_, fun l => ?_⟩
  · obtain ⟨l, rfl, hl⟩ := hread hk
    obtain ⟨l', rfl, hl'⟩ := hread hk'
    rw [hl.unique hl']
  · rw [parse_named_ok_iff, readAs_ok_iff]
    exact (and_iff_right rfl).symm

/-- A date between blanks. -/
theorem parse_named_date :
    parse "a= 2012-02-29T23:30:00-01:00\t" = .ok (.comparison ⟨.attribute (.name "a"), .eq,
        .literal (.date "2012-02-29T23:30:00-01:00" ⟨1330561800, 0, -3600⟩)⟩) ∧
      ∀ k, (readAs k " 2012-02-29T23:30:00-01:00\t").isOk = true → k = .date := by
  have hdate : readAs .date " 2012-02-29T23:30:00-01:00\t" =
      .ok (.date "2012-02-29T23:30:00-01:00" ⟨1330561800, 0, -3600⟩) := by
    cbv
  obtain ⟨honly, hparse⟩ := parse_named_iff " 2012-02-29T23:30:00-01:00\t"
  exact ⟨(hparse _).2 hdate, fun k hk => honly k .date hk (by rw [hdate]; rfl)⟩

end

end Cimi.Filter
