import Cimi.Proofs.Filter.Blames

/-!
# Texts one behind the other

A scan finds the same token in front of anything that does not go on with it (`scan_before`), and no
blank goes on with a token.  So the lexemes of two texts with blanks between them are those of the
first text and then those of the second, moved to their place (`lexFrom_append`).

The lexemes of a text are slices of it, one behind the other, with nothing but blanks around them
(`Slices`).  A slice by itself is its token (`lexFrom_slice`), and each byte of the text stands in
one slice, or in a blank that is in none (`Slices.byte`).
-/

namespace Cimi.Filter

open Text (isBlank)

variable {position i : Nat} {c q : Char} {cs rest : List Char} {ts : List Lexeme}

/-! ## Where a token ends -/

/-- A text that is empty or begins with a blank. -/
def EndsToken (cs : List Char) : Prop := ∀ c ∈ cs.head?, isBlank c = true

theorem endsToken_blanks {w : List Char} (hne : w ≠ []) (hw : ∀ c ∈ w, isBlank c = true)
    (cs : List Char) : EndsToken (w ++ cs) := by
  rcases w with _ | ⟨c, w⟩
  · exact absurd rfl hne
  · intro d hd
    cases hd
    exact hw c List.mem_cons_self

/-- A quoted text is closed by the same quote, whatever stands behind it. -/
theorem closeQuote_before (rest : List Char) : ∀ {cs value text after : List Char},
    closeQuote q cs = some (value, text, after) →
      closeQuote q (text ++ rest) = some (value, text, rest)
  | [], _, _, _, h => by simp [closeQuote] at h
  | c :: cs, value, text, after, h => by
    rw [closeQuote.eq_def] at h
    simp only at h
    split_ifs at h with hq hc
    · cases h
      rw [hq]
      exact closeQuote_self q rest
    · split at h
      · cases h
      · next d cs =>
        simp only [Option.map_eq_some_iff, Prod.mk.injEq, Prod.exists] at h
        obtain ⟨v, t, r, hd, rfl, rfl, rfl⟩ := h
        subst hc
        rw [List.cons_append, List.cons_append, closeQuote_escape hq, closeQuote_before rest hd]
        rfl
    · simp only [Option.map_eq_some_iff, Prod.mk.injEq, Prod.exists] at h
      obtain ⟨v, t, r, hd, rfl, rfl, rfl⟩ := h
      rw [List.cons_append, closeQuote_cons hq hc, closeQuote_before rest hd]
      rfl

/-- What stands behind a token does not go on with it if it begins as what the token was found in
front of, or if it ends any token. -/
def Scan.EndsBefore {cs : List Char} (s : Scan cs) (rest : List Char) : Prop :=
  rest.head? = s.rest.head? ∨ EndsToken rest

/-- A run of characters of a class with no blank in it ends where it did. -/
theorem takeWhile_before {p : Char → Bool} (hp : ∀ c, p c = true → isBlank c = false)
    (hr : rest.head? = (cs.dropWhile p).head? ∨ EndsToken rest) :
    (cs.takeWhile p ++ rest).takeWhile p = cs.takeWhile p ∧
      (cs.takeWhile p ++ rest).dropWhile p = rest := by
  refine takeWhile_append_of_all List.all_takeWhile fun c hc => ?_
  rcases hr with hr | hr
  · have hstop := List.head?_dropWhile_not p cs
    rw [← hr, hc] at hstop
    exact hstop
  · by_contra hpc
    rw [Bool.not_eq_false] at hpc
    exact absurd (hr c hc) (by simp [hp c hpc])

/-- A token is found again in front of anything that does not go on with it. -/
theorem scan_before {cs' : List Char} {s : Scan (c :: cs)} (h : scan position c cs = .ok s)
    (hr : s.EndsBefore rest) (hcs : c :: cs' = s.text ++ rest) :
    ∃ s', scan position c cs' = .ok s' ∧
      s'.token = s.token ∧ s'.text = s.text ∧ s'.rest = rest := by
  unfold scan at h
  split at h
  case h_6 =>
    split at h <;> cases h
    cases hcs
    exact ⟨_, rfl, rfl, rfl, rfl⟩
  case h_7 | h_8 =>
    split at h <;> cases h
    · cases hcs
      exact ⟨_, rfl, rfl, rfl, rfl⟩
    · next hne =>
      obtain rfl : cs' = rest := (List.cons.inj hcs).2
      unfold scan
      simp only
      split
      · rcases hr with hr | hr
        · rcases cs with _ | ⟨d, cs⟩
          · cases hr
          · cases hr
            exact (hne cs rfl).elim
        · exact absurd (hr '=' rfl) (by decide)
      · exact ⟨_, rfl, rfl, rfl, rfl⟩
  case h_9 =>
    split_ifs at h with hq hd hw
    · split at h
      · next hclose =>
        cases h
        cases hcs
        obtain ⟨s', hs', htoken, hrest⟩ :=
          @scan_quote position _ _ _ _ _ (by simpa using hq) (closeQuote_before rest hclose)
        refine ⟨s', hs', htoken, ?_, hrest⟩
        have htext := s'.append_rest
        rw [hrest] at htext
        exact List.append_cancel_right htext
      · cases h
    · cases h
      cases hcs
      obtain ⟨htake, hdrop⟩ := takeWhile_before (fun _ => isBlank_of_isDateChar) hr
      exact ⟨_, scan_digit hd, congrArg (fun cs => numeral (c :: cs)) htake,
        congrArg (c :: ·) htake, hdrop⟩
    · cases h
      cases hcs
      obtain ⟨htake, hdrop⟩ := takeWhile_before (fun _ => isBlank_of_isWordChar) hr
      exact ⟨_, scan_wordStart hw, congrArg (fun cs => Token.word (String.ofList (c :: cs))) htake,
        congrArg (c :: ·) htake, hdrop⟩
  all_goals
    cases h
    cases hcs
    exact ⟨_, rfl, rfl, rfl, rfl⟩

/-! ## Texts with blanks between them -/

theorem lexFrom_append (hr : EndsToken rest) : ∀ (position : Nat) (cs : List Char)
    {ts : List Lexeme}, lexFrom position cs = .ok ts →
      lexFrom position (cs ++ rest) = (lexFrom (position + Text.Utf8.size cs) rest).map (ts ++ ·)
  | position, [], ts, h => by
    rw [lexFrom.eq_def] at h
    cases h
    change lexFrom position rest = (lexFrom position rest).map id
    rw [Except.map_id]
    rfl
  | position, c :: cs, ts, h => by
    rcases lexFrom_cons_ok h with ⟨hb, h⟩ | ⟨hb, s, ls, hs, hl, rfl⟩
    · rw [List.cons_append, lexFrom_blank hb, lexFrom_append hr _ cs h, Text.Utf8.size_cons,
        Nat.add_assoc]
    · -- The rest of the token is empty, or what followed the token still follows it.
      have hbefore : s.EndsBefore (s.rest ++ rest) := by
        rcases hrest : s.rest with _ | ⟨d, ds⟩
        · exact .inr hr
        · exact .inl (by rw [hrest]; rfl)
      have hcs : c :: (cs ++ rest) = s.text ++ (s.rest ++ rest) := by
        rw [← List.append_assoc, s.append_rest, List.cons_append]
      obtain ⟨s', hs', htoken, htext, hrest⟩ := scan_before hs hbefore hcs
      have hsize : Text.Utf8.size (c :: cs) = Text.Utf8.size s.text + Text.Utf8.size s.rest := by
        rw [← Text.Utf8.size_append, s.append_rest]
      rw [List.cons_append, lexFrom_token hb hs', htoken, htext, hrest,
        lexFrom_append hr _ s.rest hl, hsize, Nat.add_assoc]
      generalize lexFrom (position + (Text.Utf8.size s.text + Text.Utf8.size s.rest)) rest = tail
      rcases tail with e | us <;> rfl
termination_by _ cs => cs.length
decreasing_by
  · exact Nat.lt_succ_self _
  · exact s.length_rest_lt

theorem lexFrom_blanks (cs : List Char) : ∀ (position : Nat) {w : List Char},
    (∀ c ∈ w, isBlank c = true) →
      lexFrom position (w ++ cs) = lexFrom (position + Text.Utf8.size w) cs
  | position, [], _ => rfl
  | position, c :: w, hw => by
    obtain ⟨hc, hw⟩ := List.forall_mem_cons.1 hw
    rw [List.cons_append, lexFrom_blank hc, lexFrom_blanks cs _ hw, Text.Utf8.size_cons,
      Nat.add_assoc]

/-! ## The slices of a text -/

/-- The lexemes of a text that starts at byte `position` stand one behind the other, and what is in
none of them is blank. -/
inductive Slices : (position : Nat) → List Char → List Lexeme → Prop
  | done (position : Nat) : Slices position [] []
  | blank {position : Nat} {c : Char} {cs : List Char} {ts : List Lexeme}
    (hc : isBlank c = true) (h : Slices (position + c.utf8Size) cs ts) :
    Slices position (c :: cs) ts
  | token {position : Nat} {text cs : List Char} {ts : List Lexeme} (token : Token)
    (hne : text ≠ []) (h : Slices (position + Text.Utf8.size text) cs ts) :
    Slices position (text ++ cs) (⟨position, text, token⟩ :: ts)

theorem slices_of_lexFrom : ∀ (position : Nat) (cs : List Char) {ts : List Lexeme},
    lexFrom position cs = .ok ts → Slices position cs ts
  | position, [], ts, h => by
    rw [lexFrom.eq_def] at h
    cases h
    exact .done position
  | position, c :: cs, ts, h => by
    rcases lexFrom_cons_ok h with ⟨hb, h⟩ | ⟨-, s, ls, -, hl, rfl⟩
    · exact .blank hb (slices_of_lexFrom _ cs h)
    · have hslice := Slices.token s.token s.text_ne_nil (slices_of_lexFrom _ s.rest hl)
      rwa [s.append_rest] at hslice
termination_by _ cs => cs.length
decreasing_by
  · exact Nat.lt_succ_self _
  · exact s.length_rest_lt

/-- Whether a byte is in the slice of a lexeme. -/
def Lexeme.Holds (t : Lexeme) (i : Nat) : Prop :=
  t.start ≤ i ∧ i < t.start + Text.Utf8.size t.text

/-- Whether a byte of a text that starts at byte `position` is one of a blank. -/
def IsBlankAt (position : Nat) (cs : List Char) (i : Nat) : Prop :=
  ∃ before c behind, cs = before ++ c :: behind ∧ isBlank c = true ∧
    position + Text.Utf8.size before ≤ i ∧ i < position + Text.Utf8.size before + c.utf8Size

theorem IsBlankAt.append {before : List Char}
    (h : IsBlankAt (position + Text.Utf8.size before) cs i) :
    IsBlankAt position (before ++ cs) i := by
  obtain ⟨bs, c, behind, rfl, hc, hle, hlt⟩ := h
  refine ⟨before ++ bs, c, behind, (List.append_assoc ..).symm, hc, ?_, ?_⟩ <;>
    rw [Text.Utf8.size_append] <;> omega

theorem size_pos_of_ne_nil : ∀ {cs : List Char}, cs ≠ [] → 0 < Text.Utf8.size cs
  | [], h => absurd rfl h
  | c :: cs, _ => by
    have := c.utf8Size_pos
    rw [Text.Utf8.size_cons]
    omega

theorem Slices.le_start (h : Slices position cs ts) : ∀ t ∈ ts, position ≤ t.start := by
  induction h with
  | done => simp
  | blank _ _ ih => exact fun t ht => Nat.le_of_add_right_le (ih t ht)
  | token _ _ _ ih =>
    exact List.forall_mem_cons.2 ⟨le_rfl, fun t ht => Nat.le_of_add_right_le (ih t ht)⟩

theorem Slices.pairwise_start (h : Slices position cs ts) :
    ts.Pairwise fun t u => t.start < u.start := by
  induction h with
  | done => exact .nil
  | blank _ _ ih => exact ih
  | token _ hne h ih =>
    refine .cons (fun t ht => ?_) ih
    have hle := h.le_start t ht
    have hpos := size_pos_of_ne_nil hne
    simp only
    omega

/-- Each byte is in one slice, or in a blank that no slice holds. -/
theorem Slices.byte (h : Slices position cs ts) (hle : position ≤ i)
    (hlt : i < position + Text.Utf8.size cs) :
    (∃! t, t ∈ ts ∧ t.Holds i) ∨ IsBlankAt position cs i ∧ ∀ t ∈ ts, ¬ t.Holds i := by
  induction h with
  | done position =>
    rw [Text.Utf8.size_nil] at hlt
    omega
  | @blank position c cs ts hc h ih =>
    rw [Text.Utf8.size_cons] at hlt
    by_cases hi : i < position + c.utf8Size
    · refine .inr ⟨⟨[], c, cs, rfl, hc, hle, hi⟩, fun t ht hh => ?_⟩
      have := h.le_start t ht
      have := hh.1
      omega
    · refine (ih (by omega) (by omega)).imp id fun ⟨hblank, hnone⟩ => ⟨?_, hnone⟩
      change IsBlankAt position ([c] ++ cs) i
      exact IsBlankAt.append hblank
  | @token position text cs ts token hne h ih =>
    rw [Text.Utf8.size_append] at hlt
    by_cases hi : i < position + Text.Utf8.size text
    · refine .inl ⟨_, ⟨List.mem_cons_self, hle, hi⟩, fun t ⟨ht, hh⟩ => ?_⟩
      rcases List.mem_cons.1 ht with rfl | ht
      · rfl
      · have := h.le_start t ht
        have := hh.1
        omega
    · have hself : ¬ (Lexeme.mk position text token).Holds i := fun hh => hi hh.2
      rcases ih (by omega) (by omega) with ⟨t, ⟨ht, hh⟩, hunique⟩ | ⟨hblank, hnone⟩
      · refine .inl ⟨t, ⟨List.mem_cons_of_mem _ ht, hh⟩, fun u ⟨hu, huh⟩ => ?_⟩
        rcases List.mem_cons.1 hu with rfl | hu
        · exact absurd huh hself
        · exact hunique u ⟨hu, huh⟩
      · exact .inr ⟨hblank.append, List.forall_mem_cons.2 ⟨hself, hnone⟩⟩

/-- A slice by itself is its token. -/
theorem lexFrom_slice : ∀ (position : Nat) (cs : List Char) {ts : List Lexeme},
    lexFrom position cs = .ok ts → ∀ t ∈ ts, lexFrom t.start t.text = .ok [t]
  | position, [], ts, h => by
    rw [lexFrom.eq_def] at h
    cases h
    simp
  | position, c :: cs, ts, h => by
    rcases lexFrom_cons_ok h with ⟨-, h⟩ | ⟨hb, s, ls, hs, hl, rfl⟩
    · exact lexFrom_slice _ cs h
    · refine List.forall_mem_cons.2 ⟨?_, lexFrom_slice _ s.rest hl⟩
      simp only
      rcases htext : s.text with _ | ⟨d, body⟩
      · exact absurd htext s.text_ne_nil
      · obtain rfl : d = c := by
          have := s.append_rest
          rw [htext] at this
          exact (List.cons.inj this).1
        have hends : s.EndsBefore [] := .inr nofun
        have hbody : d :: body = s.text ++ [] := by rw [htext, List.append_nil]
        obtain ⟨s', hs', htoken, htext', hrest⟩ := scan_before hs hends hbody
        rw [lexFrom_token hb hs', hrest, htoken, htext', htext, lexFrom.eq_def]
        rfl
termination_by _ cs => cs.length
decreasing_by
  · exact Nat.lt_succ_self _
  · exact s.length_rest_lt

/-- A text with blanks and another text behind it is cut into the lexemes of both, or it has the
error of the other text.  What a text is cut into are slices of it that do not overlap, and there is
nothing between them but blanks. -/
theorem lex_append :
    (∀ first w second ts, lex first = .ok ts → w.toList ≠ [] → (∀ c ∈ w.toList, isBlank c = true) →
      lex (first ++ w ++ second) =
        match lex second with
        | .ok us => .ok (ts ++ us.map (.shift (Text.Utf8.size (first ++ w).toList)))
        | .error e => .error (e.shift (Text.Utf8.size (first ++ w).toList))) ∧
    ∀ text ts, lex text = .ok ts →
      (ts.Pairwise fun t u => t.start < u.start) ∧
      (∀ t ∈ ts, t.StandsIn text.toList ∧ lexFrom t.start t.text = .ok [t]) ∧
      ∀ i < Text.Utf8.size text.toList,
        (∃! t, t ∈ ts ∧ t.Holds i) ∨ IsBlankAt 0 text.toList i ∧ ∀ t ∈ ts, ¬ t.Holds i := by
  refine ⟨fun first w second ts h hne hblank => ?_, fun text ts h => ?_⟩
  · have hlex : lex (first ++ w ++ second) =
        (lexFrom (Text.Utf8.size (first ++ w).toList) second.toList).map (ts ++ ·) := by
      simp only [lex, String.toList_append, List.append_assoc, Text.Utf8.size_append]
      rw [lexFrom_append (endsToken_blanks hne hblank _) 0 _ h, lexFrom_blanks _ _ hblank,
        Nat.zero_add]
    rw [hlex, ← Nat.add_zero (Text.Utf8.size _), lexFrom_shift]
    change ((Except.map _ (lex second)).mapError _).map _ = _
    rcases lex second with e | us <;> rfl
  · have hslices := slices_of_lexFrom 0 _ h
    refine ⟨hslices.pairwise_start, fun t ht => ⟨?_, lexFrom_slice 0 _ h t ht⟩, fun i hi => ?_⟩
    · exact standsIn_of_lexFrom [] _ h t ht
    · exact hslices.byte (Nat.zero_le i) (by rwa [Nat.zero_add])

/-- A string with blanks in it, then an ideographic space and a line break; `~` begins no token. -/
theorem lex_append_wide :
    ∃ ts, lex "a>='é  '" = .ok ts ∧
      lex ("a>='é  '" ++ "\u3000\n" ++ "b") = .ok (ts ++ [⟨13, ['b'], .word "b"⟩]) ∧
      lex ("a>='é  '" ++ "\u3000\n" ++ "b ~") = .error (.unexpectedChar '~' 15) ∧
      ∃! t, t ∈ ts ∧ t.Holds 6 := by
  have h : lex "a>='é  '" = .ok [⟨0, ['a'], .word "a"⟩, ⟨1, ['>', '='], .op .ge⟩,
      ⟨3, "'é  '".toList, .string "é  "⟩] := by cbv
  have hblank : ∀ c ∈ "\u3000\n".toList, isBlank c = true := by
    simp [isBlank, Text.blankRanges]
  have hword : lex "b" = .ok [⟨0, ['b'], .word "b"⟩] := by cbv
  have hfault : lex "b ~" = .error (.unexpectedChar '~' 2) := by cbv
  refine ⟨_, h, ?_, ?_, ?_⟩
  · rw [lex_append.1 _ _ _ _ h (by decide) hblank, hword]
    rfl
  · rw [lex_append.1 _ _ _ _ h (by decide) hblank, hfault]
    rfl
  · refine ((lex_append.2 _ _ h).2.2 6 (by decide)).resolve_right fun hnone => ?_
    exact hnone.2 ⟨3, "'é  '".toList, .string "é  "⟩ (by simp) ⟨by decide, by decide⟩

end Cimi.Filter
