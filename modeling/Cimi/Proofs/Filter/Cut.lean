import Cimi.Proofs.Filter.Grammar

/-!
# How a text is cut into tokens

`Cuts cs ts` says that the characters `cs` are cut into the tokens `ts`, wherever they stand.  A
token comes first if the scan finds it there, and the scan of a word or a numeral ends where the
next character does not continue it.  Every token that is found has the form of its kind
(`isValid_of_lexFrom`).  A text that stands elsewhere has the same tokens and the same error, moved
to its place (`lexFrom_shift`).
-/

namespace Cimi.Filter

open Text (isBlank)

/-! ## The form of a token -/

/-- Whether a text is a letter or underscore, followed by letters, digits and underscores. -/
def isIdentifier : List Char → Bool
  | [] => false
  | c :: cs => isWordStart c && cs.all isWordChar

/-- Whether a text is a digit, followed by what can stand in a number or a date. -/
def isNumeral : List Char → Bool
  | [] => false
  | c :: cs => c.isDigit && cs.all isDateChar

/-- Whether a text has the form of a date token: a numeral that is not digits alone. -/
def isDateLexeme (cs : List Char) : Bool := isNumeral cs && !cs.all Char.isDigit

/-- Whether a token has the form of its kind. -/
def Token.isValid : Token → Bool
  | .int digits => isNumeral digits.toList && digits.toList.all Char.isDigit
  | .date text => isDateLexeme text.toList
  | .word name => isIdentifier name.toList
  | _ => true

theorem isDateChar_of_isDigit {c : Char} (h : c.isDigit = true) : isDateChar c = true := by
  simp [isDateChar, h]

theorem isNumeral_of_isDigit {cs : List Char} (hne : cs ≠ []) (h : cs.all Char.isDigit = true) :
    isNumeral cs = true := by
  rcases cs with _ | ⟨c, cs⟩
  · exact absurd rfl hne
  · simp only [List.all_cons, Bool.and_eq_true, List.all_eq_true] at h
    simp only [isNumeral, h.1, Bool.true_and, List.all_eq_true]
    exact fun d hd => isDateChar_of_isDigit (h.2 d hd)

theorem isValid_numeral {cs : List Char} (h : isNumeral cs = true) :
    (numeral cs).isValid = true := by
  unfold numeral
  split_ifs with hd
  · simp [Token.isValid, h, hd]
  · simp [Token.isValid, isDateLexeme, h, hd]

theorem isValid_of_scan {position : Nat} {c : Char} {cs : List Char} {s : Scan (c :: cs)}
    (h : scan position c cs = .ok s) : s.token.isValid = true := by
  unfold scan at h
  split at h
  case h_6 | h_7 | h_8 => split at h <;> cases h <;> rfl
  case h_9 =>
    split_ifs at h with hq hd hw
    · split at h <;> cases h
      rfl
    · cases h
      exact isValid_numeral (by simp [isNumeral, hd])
    · cases h
      simp [scanRun, Token.isValid, isIdentifier, hw]
  all_goals
    cases h
    rfl

/-- A text is cut by passing over a blank, or by taking one token off it. -/
theorem lexFrom_cons_ok {position : Nat} {c : Char} {cs : List Char} {ts : List Lexeme}
    (h : lexFrom position (c :: cs) = .ok ts) :
    (isBlank c = true ∧ lexFrom (position + c.utf8Size) cs = .ok ts) ∨
      (isBlank c = false ∧ ∃ s rest, scan position c cs = .ok s ∧
        lexFrom (position + Text.Utf8.size s.text) s.rest = .ok rest ∧
        ts = ⟨position, s.text, s.token⟩ :: rest) := by
  rw [lexFrom.eq_def] at h
  simp only at h
  split_ifs at h with hb
  · exact .inl ⟨hb, h⟩
  · rcases hs : scan position c cs with e | s <;> rw [hs] at h <;> simp only at h
    · cases h
    rcases hl : lexFrom (position + Text.Utf8.size s.text) s.rest with e | rest <;> rw [hl] at h
    · cases h
    · cases h
      exact .inr ⟨by simpa using hb, s, rest, rfl, hl, rfl⟩

/-- A blank is passed over. -/
theorem lexFrom_blank {position : Nat} {c : Char} (hc : isBlank c = true) (cs : List Char) :
    lexFrom position (c :: cs) = lexFrom (position + c.utf8Size) cs := by
  rw [lexFrom.eq_def]
  simp only [hc, if_true]

/-- A token that the scan finds stands before those of the rest. -/
theorem lexFrom_token {position : Nat} {c : Char} {cs : List Char} {s : Scan (c :: cs)}
    (hc : isBlank c = false) (hs : scan position c cs = .ok s) :
    lexFrom position (c :: cs) =
      (lexFrom (position + Text.Utf8.size s.text) s.rest).map
        (⟨position, s.text, s.token⟩ :: ·) := by
  rw [lexFrom.eq_def]
  simp only [hc, hs, Bool.false_eq_true, if_false]

theorem isValid_of_lexFrom {position : Nat} : ∀ (cs : List Char) {ts : List Lexeme},
    lexFrom position cs = .ok ts → ∀ t ∈ tokens ts, t.isValid = true
  | [], ts, h => by
    rw [lexFrom.eq_def] at h
    cases h
    simp
  | c :: cs, ts, h => by
    rcases lexFrom_cons_ok h with ⟨-, h⟩ | ⟨-, s, rest, hs, h', rfl⟩
    · exact isValid_of_lexFrom cs h
    · simp only [tokens_cons, List.mem_cons, forall_eq_or_imp]
      exact ⟨isValid_of_scan hs, isValid_of_lexFrom s.rest h'⟩
termination_by cs => cs.length
decreasing_by
  · exact Nat.lt_succ_self _
  · exact s.length_rest_lt

/-! ## Tokens in front of a rest -/

/-- Wherever they stand, the characters are cut into the tokens. -/
def Cuts (cs : List Char) (ts : List Token) : Prop :=
  ∀ position, ∃ ls, lexFrom position cs = .ok ls ∧ tokens ls = ts

theorem cuts_nil : Cuts [] [] := fun position => ⟨[], by rw [lexFrom.eq_def], rfl⟩

theorem Cuts.blank {c : Char} {cs : List Char} {ts : List Token} (h : Cuts cs ts)
    (hc : isBlank c = true) : Cuts (c :: cs) ts := by
  intro position
  obtain ⟨ls, hls, hts⟩ := h (position + c.utf8Size)
  exact ⟨ls, by rw [lexFrom_blank hc, hls], hts⟩

/-- A token that the scan finds stands before the tokens of the rest. -/
theorem Cuts.token {t : Token} {c : Char} {cs rest : List Char} {ts : List Token}
    (h : Cuts rest ts) (hc : isBlank c = false)
    (hs : ∀ position, ∃ s, scan position c cs = .ok s ∧ s.token = t ∧ s.rest = rest) :
    Cuts (c :: cs) (t :: ts) := by
  intro position
  obtain ⟨s, hscan, rfl, rfl⟩ := hs position
  obtain ⟨ls, hls, rfl⟩ := h (position + Text.Utf8.size s.text)
  exact ⟨⟨position, s.text, s.token⟩ :: ls, by rw [lexFrom_token hc hscan, hls]; rfl, rfl⟩

/-- The characters between the blanks of ASCII and those beyond it are no blanks. -/
theorem isBlank_eq_false {c : Char} (h : 0x20 < c.toNat) (h' : c.toNat < 0x85) :
    isBlank c = false := by
  simp only [isBlank, Text.blankRanges, List.any_cons, List.any_nil, Bool.or_false,
    Bool.or_eq_false_iff, Bool.and_eq_false_iff, decide_eq_false_iff_not]
  omega

theorem toNat_of_isDigit {c : Char} (h : c.isDigit = true) : 48 ≤ c.toNat ∧ c.toNat ≤ 57 := by
  simp only [Char.isDigit, Bool.and_eq_true, decide_eq_true_eq, ge_iff_le,
    UInt32.le_iff_toNat_le] at h
  exact h

theorem toNat_of_isWordStart {c : Char} (h : isWordStart c = true) :
    65 ≤ c.toNat ∧ c.toNat ≤ 122 := by
  change (decide (c.val ≥ 65 ∧ c.val ≤ 90) || (decide (c.val ≥ 97) && decide (c.val ≤ 122)) ||
    decide (c = '_')) = true at h
  simp only [Bool.or_eq_true, Bool.and_eq_true, decide_eq_true_eq, ge_iff_le,
    UInt32.le_iff_toNat_le] at h
  rcases h with (⟨h₁, h₂⟩ | ⟨h₁, h₂⟩) | rfl
  · exact ⟨h₁, Nat.le_trans h₂ (by decide)⟩
  · exact ⟨Nat.le_trans (by decide) h₁, h₂⟩
  · decide

theorem isBlank_of_isDigit {c : Char} (h : c.isDigit = true) : isBlank c = false := by
  have := toNat_of_isDigit h
  exact isBlank_eq_false (by omega) (by omega)

theorem isBlank_of_isWordStart {c : Char} (h : isWordStart c = true) : isBlank c = false := by
  have := toNat_of_isWordStart h
  exact isBlank_eq_false (by omega) (by omega)

theorem isBlank_of_isDateChar {c : Char} (h : isDateChar c = true) : isBlank c = false := by
  simp only [isDateChar, Bool.or_eq_true, decide_eq_true_eq] at h
  rcases h with (((((h | rfl) | rfl) | rfl) | rfl) | rfl) | rfl
  · exact isBlank_of_isDigit h
  all_goals decide

theorem isBlank_of_isWordChar {c : Char} (h : isWordChar c = true) : isBlank c = false := by
  simp only [isWordChar, Char.isAlphanum, Bool.or_eq_true, decide_eq_true_eq] at h
  rcases h with (h | h) | rfl
  · exact isBlank_of_isWordStart (by simp [isWordStart, h])
  · exact isBlank_of_isDigit h
  · decide

/-- A character that is no letter, digit or underscore and has no part in a date either. -/
def Delimits (cs : List Char) : Prop :=
  ∀ c ∈ cs.head?, isWordChar c = false ∧ isDateChar c = false

theorem takeWhile_append_of_all {p : Char → Bool} {cs rest : List Char} (hc : cs.all p = true)
    (hr : ∀ c ∈ rest.head?, p c = false) :
    (cs ++ rest).takeWhile p = cs ∧ (cs ++ rest).dropWhile p = rest := by
  have hall : ∀ c ∈ cs, p c = true := by simpa using hc
  have hrest : rest.takeWhile p = [] ∧ rest.dropWhile p = rest := by
    rcases rest with _ | ⟨d, rest⟩
    · simp
    · simp [hr d rfl]
  rw [List.takeWhile_append_of_pos hall, List.dropWhile_append_of_pos hall, hrest.1, hrest.2]
  simp

theorem scan_digit {position : Nat} {c : Char} {cs : List Char} (h : c.isDigit = true) :
    scan position c cs = .ok (scanRun isDateChar numeral c cs) := by
  unfold scan
  split
  case h_9 =>
    have hq : ¬(c = '\'' ∨ c = '"') := by rintro (rfl | rfl) <;> simp at h
    simp [hq, h]
  all_goals simp at h

theorem scan_wordStart {position : Nat} {c : Char} {cs : List Char} (h : isWordStart c = true) :
    scan position c cs = .ok (scanRun isWordChar (fun t => .word (String.ofList t)) c cs) := by
  have hn := toNat_of_isWordStart h
  have hd : c.isDigit = false := by
    by_contra hd
    have := toNat_of_isDigit (by simpa using hd)
    omega
  unfold scan
  split
  case h_9 =>
    have hq : ¬(c = '\'' ∨ c = '"') := by rintro (rfl | rfl) <;> simp [isWordStart] at h
    simp [hq, h, hd]
  all_goals simp [isWordStart] at h

/-- A numeral is one token in front of anything that does not continue it. -/
theorem Cuts.numeral {text rest : List Char} {ts : List Token} (h : Cuts rest ts)
    (ht : isNumeral text = true) (hr : Delimits rest) :
    Cuts (text ++ rest) (Filter.numeral text :: ts) := by
  rcases text with _ | ⟨c, cs⟩
  · simp [isNumeral] at ht
  · simp only [isNumeral, Bool.and_eq_true] at ht
    obtain ⟨htake, hdrop⟩ := takeWhile_append_of_all ht.2 fun c hc => (hr c hc).2
    refine h.token (isBlank_of_isDigit ht.1) fun position => ⟨_, scan_digit ht.1, ?_, hdrop⟩
    exact congrArg (fun cs => Filter.numeral (c :: cs)) htake

/-- A word is one token in front of anything that does not continue it. -/
theorem Cuts.word {name : String} {rest : List Char} {ts : List Token} (h : Cuts rest ts)
    (hn : isIdentifier name.toList = true) (hr : Delimits rest) :
    Cuts (name.toList ++ rest) (.word name :: ts) := by
  rcases hname : name.toList with _ | ⟨c, cs⟩
  · simp [hname, isIdentifier] at hn
  · simp only [hname, isIdentifier, Bool.and_eq_true] at hn
    obtain ⟨htake, hdrop⟩ := takeWhile_append_of_all hn.2 fun c hc => (hr c hc).1
    refine h.token (isBlank_of_isWordStart hn.1)
      fun position => ⟨_, scan_wordStart hn.1, ?_, hdrop⟩
    refine (congrArg (fun cs => Token.word (String.ofList (c :: cs))) htake).trans ?_
    rw [← hname, String.ofList_toList]

theorem closeQuote_self (q : Char) (cs : List Char) :
    closeQuote q (q :: cs) = some ([], [q], cs) := by
  rw [closeQuote.eq_def]
  simp

theorem closeQuote_cons {q c : Char} (hq : c ≠ q) (hc : c ≠ '\\') (cs : List Char) :
    closeQuote q (c :: cs) =
      (closeQuote q cs).map fun (value, text, rest) => (c :: value, c :: text, rest) := by
  rw [closeQuote.eq_def]
  simp [hq, hc]

theorem closeQuote_escape {q : Char} (hq : '\\' ≠ q) (c : Char) (cs : List Char) :
    closeQuote q ('\\' :: c :: cs) =
      (closeQuote q cs).map fun (value, text, rest) => (c :: value, '\\' :: c :: text, rest) := by
  rw [closeQuote.eq_def]
  simp [hq]

theorem closeQuote_quote (rest : List Char) : ∀ s : List Char,
    closeQuote '\'' (s.flatMap quoteChar ++ '\'' :: rest) =
      some (s, s.flatMap quoteChar ++ ['\''], rest)
  | [] => closeQuote_self _ _
  | c :: s => by
    have ih := closeQuote_quote rest s
    simp only [List.flatMap_cons, quoteChar, List.append_assoc]
    split_ifs with hc
    · simp only [List.cons_append, List.nil_append]
      rw [closeQuote_escape (by decide), ih]
      rfl
    · simp only [Bool.or_eq_true, decide_eq_true_eq, not_or] at hc
      simp only [List.cons_append, List.nil_append]
      rw [closeQuote_cons hc.1 hc.2, ih]
      rfl

theorem scan_quote {position : Nat} {q : Char} {cs value text rest : List Char}
    (hq : q = '\'' ∨ q = '"') (h : closeQuote q cs = some (value, text, rest)) :
    ∃ s, scan position q cs = .ok s ∧ s.token = .string (String.ofList value) ∧ s.rest = rest := by
  unfold scan
  split
  case h_9 =>
    rw [if_pos (by simpa using hq)]
    split
    · rename_i value' text' rest' h'
      rw [h] at h'
      cases h'
      exact ⟨_, rfl, rfl, rfl⟩
    · rename_i h'
      rw [h] at h'
      cases h'
  all_goals simp at hq

/-- A quoted text is one token. -/
theorem Cuts.quote {s : String} {rest : List Char} {ts : List Token} (h : Cuts rest ts) :
    Cuts (Filter.quote s ++ rest) (.string s :: ts) := by
  simp only [Filter.quote, List.cons_append, List.append_assoc, List.nil_append]
  refine h.token (by decide) fun position => ?_
  obtain ⟨scanned, hs, ht, hrest⟩ := scan_quote (.inl rfl) (closeQuote_quote rest s.toList)
  exact ⟨scanned, hs, by rw [ht, String.ofList_toList], hrest⟩

/-- An operator is one token in front of anything but an equals sign. -/
theorem Cuts.op {rest : List Char} {ts : List Token} (h : Cuts rest ts) (o : Op)
    (hr : rest.head? ≠ some '=') : Cuts (o.symbol.toList ++ rest) (.op o :: ts) := by
  cases o
  case lt =>
    rw [show Op.lt.symbol.toList = ['<'] by decide, List.singleton_append]
    refine h.token (by decide) fun position => ?_
    simp only [scan]
    split
    · simp at hr
    · exact ⟨_, rfl, rfl, rfl⟩
  case gt =>
    rw [show Op.gt.symbol.toList = ['>'] by decide, List.singleton_append]
    refine h.token (by decide) fun position => ?_
    simp only [scan]
    split
    · simp at hr
    · exact ⟨_, rfl, rfl, rfl⟩
  all_goals exact h.token (by decide) fun position => ⟨_, rfl, rfl, rfl⟩

/-! ## Where a text stands -/

/-- A lexeme of a text that stands further on by so many bytes. -/
def Lexeme.shift (n : Nat) (t : Lexeme) : Lexeme := { t with start := n + t.start }

/-- An error about a text that stands further on by so many bytes. -/
def Error.shift (n : Nat) : Error → Error
  | .unexpectedChar c position => .unexpectedChar c (n + position)
  | .unterminatedString position => .unterminatedString (n + position)
  | .unexpectedToken expected found position => .unexpectedToken expected found (n + position)
  | .noSingleAttribute position => .noSingleAttribute (n + position)
  | .unexpectedEnd expected => .unexpectedEnd expected
  | .integerOutOfRange digits => .integerOutOfRange digits
  | .invalidDate text reason => .invalidDate text reason

theorem scan_shift (n position : Nat) (c : Char) (cs : List Char) :
    scan (n + position) c cs = (scan position c cs).mapError (.shift n) := by
  unfold scan
  split
  case h_6 | h_7 | h_8 => split <;> rfl
  case h_9 =>
    split_ifs
    · split <;> rfl
    all_goals rfl
  all_goals rfl

theorem lexFrom_shift (n : Nat) : ∀ (position : Nat) (cs : List Char),
    lexFrom (n + position) cs =
      ((lexFrom position cs).map (List.map (.shift n))).mapError (.shift n)
  | position, [] => by
    rw [lexFrom.eq_def, lexFrom.eq_def]
    rfl
  | position, c :: cs => by
    rw [lexFrom.eq_def, lexFrom.eq_def position]
    simp only
    split_ifs
    · rw [Nat.add_assoc, lexFrom_shift n _ cs]
    · rw [scan_shift]
      rcases scan position c cs with e | s
      · rfl
      · have hlt := s.length_rest_lt
        simp only [Except.mapError]
        rw [Nat.add_assoc, lexFrom_shift n _ s.rest]
        rcases lexFrom (position + Text.Utf8.size s.text) s.rest with e | ts <;> rfl
termination_by _ cs => cs.length
decreasing_by
  · simp
  · exact s.length_rest_lt

@[simp] theorem tokens_shift (n : Nat) (ts : List Lexeme) :
    tokens (ts.map (.shift n)) = tokens ts := by
  simp [tokens, Lexeme.shift]

/-- Where a text stands makes no difference to its tokens. -/
theorem cuts_iff {cs : List Char} {ts : List Token} (position : Nat) :
    Cuts cs ts ↔ ∃ ls, lexFrom position cs = .ok ls ∧ tokens ls = ts := by
  refine ⟨fun h => h position, ?_⟩
  rintro ⟨ls, hls, rfl⟩ other
  have hplace := lexFrom_shift position 0 cs
  rw [Nat.add_zero, hls] at hplace
  rcases hstart : lexFrom 0 cs with e | us <;> rw [hstart] at hplace <;> cases hplace
  refine ⟨us.map (.shift other), ?_, by simp⟩
  have hother := lexFrom_shift other 0 cs
  rw [Nat.add_zero, hstart] at hother
  exact hother

end Cimi.Filter
