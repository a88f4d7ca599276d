import Cimi.Proofs.Filter.Cut
import Cimi.Proofs.Filter.Viable
import Mathlib

/-!
# The errors of a filter

`Blames ts e` says what an error tells about the tokens.  One that is not expected is the first with
which they cannot go on; at the end they could go on, but are no filter yet.  The sides that are named
are those of the first comparison that has no single attribute, and a value is the first that is out
of range.

The reading carries what it has read: the tokens so far bring it to its place from the start
(`AtTerm`, `AfterTerm`), and so what stops it there is what the whole list is blamed for
(`AtTerm.blames`).
-/

namespace Cimi.Filter

/-- What an error says about the tokens that are not read as a filter. -/
inductive Blames : List Lexeme → Error → Prop
  | token {us vs : List Lexeme} {t : Lexeme} (x : Expected) (hbefore : Viable (tokens us))
    (hthrough : ¬Viable (tokens us ++ [t.token])) :
    Blames (us ++ t :: vs) (.unexpectedToken x t.token t.start)
  | ended {ts : List Lexeme} (x : Expected) (hviable : Viable (tokens ts))
    (h : ∀ ps, ¬Outline .filter (tokens ts) ps) : Blames ts (.unexpectedEnd x)
  | sides {us cs vs : List Lexeme} {t : Lexeme} {side : Side} {ws : List Token} {ps : List Place}
    (ht : cs.head? = some t) (h : Outline .filter (tokens (us ++ cs) ++ ws) ps)
    (hfirst : ps.find? (fun p => !p.isMixed) = some ⟨us.length, cs.length, side, side⟩) :
    Blames (us ++ (cs ++ vs)) (.noSingleAttribute t.start)
  | value {us vs : List Lexeme} {t : Lexeme} {e : Error} {ws : List Token} {ps : List Place}
    (ht : t.token.Invalid e) (hfirst : Valid (tokens us))
    (h : Outline .filter (tokens (us ++ [t]) ++ ws) ps)
    (hmixed : ∀ p ∈ ps, p.first + p.size ≤ us.length → p.isMixed) : Blames (us ++ t :: vs) e

theorem blames_of_sticks {us rest : List Lexeme} {x : Expected} (hviable : Viable (tokens us))
    (h : Sticks ofLexemes us rest (.unexpected x rest)) :
    Blames (us ++ rest) (.unexpected x rest) := by
  -- An outline would be read without a mismatch, but this one comes before all that begins so.
  rcases rest with _ | ⟨t, rest⟩
  · have hend := h [] rfl
    rw [List.append_nil] at hend ⊢
    refine .ended x hviable fun ps hps => ?_
    have := hps.not_isMismatch hend
    cases this
  · refine .token x hviable ?_
    rintro ⟨ws, ps, hps⟩
    have htokens : tokens us ++ [t.token] ++ ws = tokens (us ++ t :: ws.map (⟨0, [], ·⟩)) := by
      simp [tokens, Function.comp_def]
    rw [htokens] at hps
    have := hps.not_isMismatch (h (t :: ws.map (⟨0, [], ·⟩)) rfl)
    cases this

/-! ## The places of the reading -/

/-- The reading stands before a term when it has read `pre`. -/
structure AtTerm (pre : List Lexeme) (outer : List Group) (g : Group) : Prop where
  read : ∃ us vs, tokens pre = us ++ vs ∧ OuterReads outer us ∧ GroupReads g vs
  comes : ∀ ts, ofLexemes (pre ++ ts) = term outer g ts

/-- The reading stands after the term `f` when it has read `pre`, before anything that begins as
`rest`. -/
structure AfterTerm (pre rest : List Lexeme) (outer : List Group) (g : Group) (f : Filter) :
    Prop where
  read : ∃ us vs ws, tokens pre = us ++ (vs ++ ws) ∧ OuterReads outer us ∧ GroupReads g vs ∧
    Spells .comparison ws f
  comes : ∀ ts, ts.head? = rest.head? → ofLexemes (pre ++ ts) = afterTerm outer g f ts

section

variable {pre rest : List Lexeme} {outer : List Group} {g g' : Group} {f : Filter} {t : Lexeme}

theorem atTerm_start : AtTerm [] [] .empty where
  read := ⟨[], [], rfl, .nil, groupReads_empty⟩
  comes _ := rfl

theorem AtTerm.openParen (h : AtTerm pre outer g) (ht : t.token = .openParen) :
    AtTerm (pre ++ [t]) (g :: outer) .empty := by
  obtain ⟨us, vs, hpre, ho, hg⟩ := h.read
  refine ⟨⟨_, [], ?_, .cons ho hg, groupReads_empty⟩, fun ts => ?_⟩
  · simp [hpre, ht]
  · rw [List.append_assoc, List.singleton_append, h.comes, term_openParen ht]

theorem AtTerm.comparison {us : List Lexeme} {c : Comparison} (h : AtTerm pre outer g)
    (hs : Spells .comparison (tokens us) (.comparison c)) (hc : Takes comparison? us rest c) :
    AfterTerm (pre ++ us) rest outer g (.comparison c) := by
  obtain ⟨vs, ws, hpre, ho, hg⟩ := h.read
  refine ⟨⟨vs, ws, _, ?_, ho, hg, hs⟩, fun ts hts => ?_⟩
  · simp [hpre]
  · obtain ⟨hlt, hc⟩ := hc ts hts
    rw [List.append_assoc, h.comes, term_comparison hc]

theorem AfterTerm.and (h : AfterTerm pre (t :: rest) outer g f) (ht : t.token = .word "and") :
    AtTerm (pre ++ [t]) outer (g.and f) := by
  obtain ⟨us, vs, ws, hpre, ho, hg, hf⟩ := h.read
  refine ⟨⟨us, _, ?_, ho, hg.and hf⟩, fun ts => ?_⟩
  · simp [hpre, ht]
  · rw [List.append_assoc, List.singleton_append, h.comes (t :: ts) rfl, afterTerm_and ht]

theorem AfterTerm.or (h : AfterTerm pre (t :: rest) outer g f) (ht : t.token = .word "or") :
    AtTerm (pre ++ [t]) outer (g.or f) := by
  obtain ⟨us, vs, ws, hpre, ho, hg, hf⟩ := h.read
  refine ⟨⟨us, _, ?_, ho, hg.or hf⟩, fun ts => ?_⟩
  · simp [hpre, ht]
  · rw [List.append_assoc, List.singleton_append, h.comes (t :: ts) rfl, afterTerm_or ht]

/-- A parenthesis makes the whole group a term of the group around it. -/
theorem AfterTerm.closeParen (h : AfterTerm pre (t :: rest) (g' :: outer) g f)
    (ht : t.token = .closeParen) : AfterTerm (pre ++ [t]) rest outer g' (g.filter f) := by
  obtain ⟨us, vs, ws, hpre, ho, hg, hf⟩ := h.read
  cases ho with
  | cons ho hg' =>
    refine ⟨⟨_, _, _, ?_, ho, hg', .parenthesized (hg.filter hf)⟩, fun ts _ => ?_⟩
    · simp [hpre, ht]
    · rw [List.append_assoc, List.singleton_append, h.comes (t :: ts) rfl, afterTerm_closeParen ht]

/-- At a term the tokens can go on with any comparison, and those before it are mixed. -/
theorem AtTerm.outline {ts : List Token} {ps : List Place} (h : AtTerm pre outer g)
    (hts : Outline .comparison ts ps) :
    ∃ before ws, (∀ p ∈ before, p.isMixed) ∧
      Outline .filter (tokens pre ++ (ts ++ ws)) (before ++ ps.map (.shift pre.length)) := by
  obtain ⟨us, vs, hpre, ho, hg⟩ := h.read
  obtain ⟨before, ws, hbefore, h⟩ := ho.outline hg hts
  have hlength : us.length + vs.length = pre.length := by
    rw [← List.length_append, ← hpre, length_tokens]
  rw [← List.append_assoc, ← hpre, hlength] at h
  exact ⟨before, ws, hbefore, h⟩

/-- After a term the tokens can go on. -/
theorem AfterTerm.viable (h : AfterTerm pre rest outer g f) : Viable (tokens pre) := by
  obtain ⟨us, vs, ws, hpre, ho, hg, hf⟩ := h.read
  obtain ⟨ps, hps, -⟩ := hf.outline
  obtain ⟨before, ws', -, hout⟩ := ho.outline hg hps
  exact ⟨ws', _, by simpa [hpre] using hout⟩

theorem AtTerm.valid (h : AtTerm pre outer g) : Valid (tokens pre) := by
  obtain ⟨us, vs, hpre, ho, hg⟩ := h.read
  simp [hpre, ho.valid, hg.valid]

/-! ## What stops the reading -/

theorem afterTerm_nil_stuck (hand : t.token ≠ .word "and") (hor : t.token ≠ .word "or") :
    afterTerm [] g f (t :: rest) = .error (.unexpected .endOfInput (t :: rest)) := by
  rw [afterTerm.eq_def]
  split
  · next heq =>
    cases heq
    exact absurd rfl hand
  · next heq =>
    cases heq
    exact absurd rfl hor
  · rfl

theorem afterTerm_cons_stuck (hand : t.token ≠ .word "and") (hor : t.token ≠ .word "or")
    (hclose : t.token ≠ .closeParen) :
    afterTerm (g' :: outer) g f (t :: rest) = .error (.unexpected .closeParen (t :: rest)) := by
  rw [afterTerm.eq_def]
  split
  · next heq =>
    cases heq
    exact absurd rfl hand
  · next heq =>
    cases heq
    exact absurd rfl hor
  · split <;> simp_all

theorem AfterTerm.blames_end (h : AfterTerm pre [] (g' :: outer) g f) :
    Blames pre (.unexpectedEnd .closeParen) := by
  have hcomes := h.comes [] rfl
  rw [List.append_nil, afterTerm.eq_def] at hcomes
  have hblames := blames_of_sticks h.viable (sticks_nil hcomes)
  rwa [List.append_nil] at hblames

/-- What comes after a term is blamed if the reading is stuck there, whatever comes later. -/
theorem AfterTerm.blames_next {x : Expected} (h : AfterTerm pre (t :: rest) outer g f)
    (hstuck : ∀ rest, afterTerm outer g f (t :: rest) = .error (.unexpected x (t :: rest))) :
    Blames (pre ++ t :: rest) (.unexpected x (t :: rest)) := by
  refine blames_of_sticks h.viable (sticks_cons fun rest' => ?_)
  rw [h.comes (t :: rest') rfl]
  exact hstuck rest'

/-- A comparison that stops the reading of a term stops the whole reading. -/
theorem AtTerm.stops {ts : List Lexeme} {e : Error} (h : AtTerm pre outer g)
    (hopen : ∀ t, ts.head? = some t → t.token ≠ .openParen) (hc : comparison? ts = .error e) :
    ofLexemes (pre ++ ts) = .error e := by
  rw [h.comes]
  exact term_error hc hopen outer g

theorem AtTerm.blames_mismatch {us : List Lexeme} {ws : List Token} {ps : List Place} {x : Expected}
    (h : AtTerm pre outer g) (hopen : ∀ t, (us ++ rest).head? = some t → t.token ≠ .openParen)
    (hs : Outline .comparison (tokens us ++ ws) ps)
    (hc : Sticks comparison? us rest (.unexpected x rest)) :
    Blames (pre ++ (us ++ rest)) (.unexpected x rest) := by
  obtain ⟨before, ws', -, hout⟩ := h.outline hs
  have hviable : Viable (tokens (pre ++ us)) := ⟨ws ++ ws', _, by simpa using hout⟩
  rw [← List.append_assoc]
  refine blames_of_sticks hviable fun rest' hrest => ?_
  rw [List.append_assoc]
  refine h.stops (fun t ht => hopen t ?_) (hc rest' hrest)
  rwa [List.head?_append, hrest, ← List.head?_append] at ht

theorem AtTerm.blames_value {us : List Lexeme} {ws : List Token} {left right : Side} {e : Error}
    (h : AtTerm pre outer g) (hvalid : Valid (tokens us)) (ht : t.token.Invalid e)
    (hs : Outline .comparison (tokens us ++ t.token :: ws)
      [⟨0, (tokens us ++ t.token :: ws).length, left, right⟩]) :
    Blames (pre ++ (us ++ t :: rest)) e := by
  obtain ⟨before, ws', hbefore, hout⟩ := h.outline hs
  have htokens : tokens pre ++ (tokens us ++ t.token :: ws ++ ws') =
      tokens (pre ++ us ++ [t]) ++ (ws ++ ws') := by simp
  rw [htokens] at hout
  rw [← List.append_assoc]
  -- The comparison ends behind the token, so those that end before it are the ones of `before`.
  refine .value ht (by simp [h.valid, hvalid]) hout fun p hp hle => ?_
  rcases List.mem_append.1 hp with hp | hp
  · exact hbefore p hp
  · simp only [List.map_cons, List.map_nil, List.mem_singleton] at hp
    subst hp
    simp only [Place.shift, List.length_append, List.length_cons, length_tokens] at hle
    omega

theorem AtTerm.blames_sides {us : List Lexeme} {side : Side} (h : AtTerm pre outer g)
    (ht : us.head? = some t)
    (hs : Outline .comparison (tokens us) [⟨0, (tokens us).length, side, side⟩]) :
    Blames (pre ++ (us ++ rest)) (.noSingleAttribute t.start) := by
  obtain ⟨before, ws, hbefore, hout⟩ := h.outline hs
  have hplace : (⟨0, (tokens us).length, side, side⟩ : Place).shift pre.length =
      ⟨pre.length, us.length, side, side⟩ := by simp [Place.shift]
  have hnone : before.find? (fun p => !p.isMixed) = none := by simpa using hbefore
  have hfirst : (before ++ [(⟨pre.length, us.length, side, side⟩ : Place)]).find?
      (fun p => !p.isMixed) = some ⟨pre.length, us.length, side, side⟩ := by
    rw [List.find?_append, hnone]
    simp [Place.isMixed]
  rw [← List.append_assoc, ← tokens_append, List.map_singleton, hplace] at hout
  exact .sides ht hout hfirst

end

/-- A comparison that is not read is what is blamed. -/
theorem AtTerm.blames_comparison {pre ts : List Lexeme} {outer : List Group} {g : Group} {e : Error}
    (h : AtTerm pre outer g) (hopen : ∀ t, ts.head? = some t → t.token ≠ .openParen)
    (hc : comparison? ts = .error e) : Blames (pre ++ ts) e := by
  rcases comparisonEnds ts with ⟨-, hread⟩ | ⟨x, hs, hread⟩ | ⟨hvalid, ht, hs, hread⟩ |
    ⟨ht, hs, hread⟩
  · obtain ⟨hlt, hread⟩ := hread _ rfl
    rw [hread] at hc
    cases hc
  · rw [hread _ rfl] at hc
    cases hc
    exact h.blames_mismatch hopen hs hread
  · rw [hread] at hc
    cases hc
    exact h.blames_value hvalid ht hs
  · rw [hread] at hc
    cases hc
    exact h.blames_sides ht hs

theorem AtTerm.reads_comparison {pre ts : List Lexeme} {outer : List Group} {g : Group}
    {c : Comparison} {r : Remaining ts} (h : AtTerm pre outer g) (hc : comparison? ts = .ok (c, r)) :
    ∃ us, ts = us ++ r.1 ∧ AfterTerm (pre ++ us) r.1 outer g (.comparison c) := by
  rcases comparisonEnds ts with @⟨us, rest, c', hs, hread⟩ | ⟨_, -, hread⟩ | ⟨-, -, -, hread⟩ |
    ⟨-, -, hread⟩
  · obtain ⟨hlt, heq⟩ := hread rest rfl
    rw [heq] at hc
    cases hc
    exact ⟨us, rfl, h.comparison hs hread⟩
  · rw [hread _ rfl] at hc
    cases hc
  · rw [hread] at hc
    cases hc
  · rw [hread] at hc
    cases hc

mutual

theorem AtTerm.blames {pre ts : List Lexeme} {outer : List Group} {g : Group} {e : Error}
    (h : AtTerm pre outer g) (he : term outer g ts = .error e) : Blames (pre ++ ts) e := by
  by_cases hopen : ∀ t, ts.head? = some t → t.token ≠ .openParen
  · rcases hc : comparison? ts with e' | ⟨c, r⟩
    · rw [term_error hc hopen] at he
      cases he
      exact h.blames_comparison hopen hc
    · have hlt := r.2
      obtain ⟨us, hts, hafter⟩ := h.reads_comparison hc
      rw [term_comparison hc] at he
      rw [hts, ← List.append_assoc]
      exact hafter.blames he
  · push Not at hopen
    obtain ⟨t, ht, hparen⟩ := hopen
    obtain ⟨rest, rfl⟩ := List.head?_eq_some_iff.1 ht
    rw [term_openParen hparen] at he
    rw [← List.singleton_append, ← List.append_assoc]
    exact (h.openParen hparen).blames he
termination_by ts.length

theorem AfterTerm.blames {pre : List Lexeme} {outer : List Group} {g : Group} {f : Filter}
    {e : Error} : ∀ {ts : List Lexeme}, AfterTerm pre ts outer g f →
      afterTerm outer g f ts = .error e → Blames (pre ++ ts) e
  | [], h, he => by
    rw [afterTerm.eq_def] at he
    rcases outer with _ | ⟨g', outer⟩
    · cases he
    · cases he
      rw [List.append_nil]
      exact h.blames_end
  | t :: rest, h, he => by
    by_cases hand : t.token = .word "and"
    · rw [afterTerm_and hand] at he
      rw [← List.singleton_append, ← List.append_assoc]
      exact (h.and hand).blames he
    by_cases hor : t.token = .word "or"
    · rw [afterTerm_or hor] at he
      rw [← List.singleton_append, ← List.append_assoc]
      exact (h.or hor).blames he
    rcases outer with _ | ⟨g', outer⟩
    · rw [afterTerm_nil_stuck hand hor] at he
      cases he
      exact h.blames_next fun _ => afterTerm_nil_stuck hand hor
    by_cases hclose : t.token = .closeParen
    · rw [afterTerm_closeParen hclose] at he
      rw [← List.singleton_append, ← List.append_assoc]
      exact (h.closeParen hclose).blames he
    · rw [afterTerm_cons_stuck hand hor hclose] at he
      cases he
      exact h.blames_next fun _ => afterTerm_cons_stuck hand hor hclose
termination_by ts => ts.length

end

/-! ## Errors of a text -/

/-- A lexeme stands in a text at the byte where it starts, and a numeral is named by its text. -/
structure Lexeme.StandsIn (t : Lexeme) (cs : List Char) : Prop where
  place : ∃ before after, cs = before ++ (t.text ++ after) ∧ t.start = Text.Utf8.size before
  int : ∀ digits, t.token = .int digits → digits.toList = t.text
  date : ∀ text, t.token = .date text → text.toList = t.text

theorem numeral_of_scan {position : Nat} {c : Char} {cs : List Char} {s : Scan (c :: cs)}
    (h : scan position c cs = .ok s) :
    (∀ digits, s.token = .int digits → digits.toList = s.text) ∧
      ∀ text, s.token = .date text → text.toList = s.text := by
  have hnumeral (cs : List Char) : (∀ digits, numeral cs = .int digits → digits.toList = cs) ∧
      ∀ text, numeral cs = .date text → text.toList = cs := by
    unfold numeral
    split_ifs <;> simp
  unfold scan at h
  split at h
  case h_6 | h_7 | h_8 =>
    split at h <;> cases h <;> constructor <;> intro text ht <;> cases ht
  case h_9 =>
    split_ifs at h with hq hd hw
    · split at h <;> cases h
      constructor <;> intro text ht <;> cases ht
    · cases h
      exact hnumeral _
    · cases h
      constructor <;> intro text ht <;> cases ht
  all_goals
    cases h
    constructor <;> intro text ht <;> cases ht

theorem standsIn_of_lexFrom : ∀ (before cs : List Char) {ts : List Lexeme},
    lexFrom (Text.Utf8.size before) cs = .ok ts → ∀ t ∈ ts, t.StandsIn (before ++ cs)
  | before, [], ts, h => by
    rw [lexFrom.eq_def] at h
    cases h
    simp
  | before, c :: cs, ts, h => by
    rcases lexFrom_cons_ok h with ⟨-, h⟩ | ⟨-, s, rest, hs, h', rfl⟩
    · have := standsIn_of_lexFrom (before ++ [c]) cs (by simpa using h)
      simpa using this
    · have hrest := standsIn_of_lexFrom (before ++ s.text) s.rest (by simpa using h')
      rw [List.append_assoc, s.append_rest] at hrest
      have hplace : before ++ c :: cs = before ++ (s.text ++ s.rest) := by rw [s.append_rest]
      have hnumeral := numeral_of_scan hs
      simp only [List.mem_cons, forall_eq_or_imp]
      exact ⟨⟨⟨before, s.rest, hplace, rfl⟩, hnumeral.1, hnumeral.2⟩, hrest⟩
termination_by _ cs => cs.length
decreasing_by
  · exact Nat.lt_succ_self _
  · exact s.length_rest_lt

/-- A text that cannot be cut into tokens has the error of the cutting.  If it can be cut but is no
filter, the error says what is wrong with its tokens. -/
theorem parse_blames (text : String) :
    (∀ e, lex text = .error e → parse text = .error e) ∧
      ∀ ts, lex text = .ok ts → (∀ t ∈ ts, t.StandsIn text.toList) ∧
        ∀ e, parse text = .error e → Blames ts e := by
  refine ⟨fun e h => ?_, fun ts h => ⟨?_, fun e he => ?_⟩⟩
  · rw [parse, h]
    rfl
  · exact standsIn_of_lexFrom [] text.toList h
  · rw [parse, h] at he
    exact atTerm_start.blames he

/-- The quote is never closed; and the comparison in the parenthesis is blamed before the end. -/
theorem parse_blames_sides :
    parse "a='" = .error (.unterminatedString 2) ∧
      ∃ ts, lex "a=1 and (b<c" = .ok ts ∧ parse "a=1 and (b<c" = .error (.noSingleAttribute 9) ∧
        Blames ts (.noSingleAttribute 9) := by
  refine ⟨(parse_blames "a='").1 _ (by cbv), _, by cbv, by cbv, ?_⟩
  exact ((parse_blames "a=1 and (b<c").2 _ (by cbv)).2 _ (by cbv)

end Cimi.Filter
