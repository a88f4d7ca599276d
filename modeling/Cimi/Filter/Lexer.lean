import Cimi.Filter.Token
import Cimi.Text.Blank
import Cimi.Text.Utf8

/-!
# Cutting a filter into tokens

A token is scanned at the first character that is no blank, and is as long as it can be.  The scan
keeps the text of the token and the rest, which together are what was scanned, so the loop over the
whole text ends.
-/

namespace Cimi.Filter

/-- A token at the start of a text, with its own text and what follows it. -/
structure Scan (cs : List Char) where
  token : Token
  text : List Char
  rest : List Char
  text_ne_nil : text ≠ []
  append_rest : text ++ rest = cs

theorem Scan.length_rest_lt {cs : List Char} (s : Scan cs) : s.rest.length < cs.length := by
  have h := congrArg List.length s.append_rest
  have hne := List.length_pos_iff.2 s.text_ne_nil
  rw [List.length_append] at h
  omega

/-- A string after its opening quote: its value, its text with the closing quote, and the rest.  A
backslash takes the meaning from the character after it. -/
def closeQuote (quote : Char) : List Char → Option (List Char × List Char × List Char)
  | [] => none
  | c :: cs =>
    if c = quote then some ([], [c], cs)
    else if c = '\\' then
      match cs with
      | [] => none
      | d :: cs => (closeQuote quote cs).map fun (value, text, rest) =>
        (d :: value, c :: d :: text, rest)
    else (closeQuote quote cs).map fun (value, text, rest) => (c :: value, c :: text, rest)

theorem closeQuote_append {quote : Char} : ∀ {cs value text rest : List Char},
    closeQuote quote cs = some (value, text, rest) → text ++ rest = cs
  | [], _, _, _, h => by simp [closeQuote] at h
  | c :: cs, value, text, rest, h => by
    rw [closeQuote.eq_def] at h
    simp only at h
    split at h
    · simp only [Option.some.injEq, Prod.mk.injEq] at h
      obtain ⟨_, rfl, rfl⟩ := h
      rfl
    · split at h
      · split at h
        · simp at h
        · simp only [Option.map_eq_some_iff, Prod.mk.injEq, Prod.exists] at h
          obtain ⟨v, t, r, hq, _, rfl, rfl⟩ := h
          simp [closeQuote_append hq]
      · simp only [Option.map_eq_some_iff, Prod.mk.injEq, Prod.exists] at h
        obtain ⟨v, t, r, hq, _, rfl, rfl⟩ := h
        simp [closeQuote_append hq]

/-- Whether a character can stand in a number or a date. -/
def isDateChar (c : Char) : Bool :=
  c.isDigit || c = '-' || c = ':' || c = 'T' || c = '.' || c = 'Z' || c = '+'

/-- Whether a character can begin a word. -/
def isWordStart (c : Char) : Bool := c.isAlpha || c = '_'

/-- Whether a character can stand in a word. -/
def isWordChar (c : Char) : Bool := c.isAlphanum || c = '_'

/-- A run of digits is an integer, any other run that begins with a digit is a date. -/
def numeral (text : List Char) : Token :=
  if text.all Char.isDigit then .int (String.ofList text) else .date (String.ofList text)

/-- A token that is the character `c` alone. -/
def scanOne (token : Token) (c : Char) (cs : List Char) : Scan (c :: cs) :=
  ⟨token, [c], cs, by simp, rfl⟩

/-- A token of two characters. -/
def scanTwo (token : Token) (c d : Char) (cs : List Char) : Scan (c :: d :: cs) :=
  ⟨token, [c, d], cs, by simp, rfl⟩

/-- A token that goes on with the characters of a class. -/
def scanRun (p : Char → Bool) (token : List Char → Token) (c : Char) (cs : List Char) :
    Scan (c :: cs) :=
  ⟨token (c :: cs.takeWhile p), c :: cs.takeWhile p, cs.dropWhile p, by simp, by simp⟩

/-- The token at the start of a text, which stands at byte `position`. -/
def scan (position : Nat) (c : Char) (cs : List Char) : Except Error (Scan (c :: cs)) :=
  match c with
  | '(' => .ok (scanOne .openParen '(' cs)
  | ')' => .ok (scanOne .closeParen ')' cs)
  | '[' => .ok (scanOne .openBracket '[' cs)
  | ']' => .ok (scanOne .closeBracket ']' cs)
  | '=' => .ok (scanOne (.op .eq) '=' cs)
  | '!' =>
    match cs with
    | '=' :: cs => .ok (scanTwo (.op .ne) '!' '=' cs)
    | _ => .error (.unexpectedChar '!' position)
  | '<' =>
    match cs with
    | '=' :: cs => .ok (scanTwo (.op .le) '<' '=' cs)
    | cs => .ok (scanOne (.op .lt) '<' cs)
  | '>' =>
    match cs with
    | '=' :: cs => .ok (scanTwo (.op .ge) '>' '=' cs)
    | cs => .ok (scanOne (.op .gt) '>' cs)
  | c =>
    if c = '\'' || c = '"' then
      match h : closeQuote c cs with
      | some (value, text, rest) =>
        .ok ⟨.string (String.ofList value), c :: text, rest, by simp, by
          simp [closeQuote_append h]⟩
      | none => .error (.unterminatedString position)
    else if c.isDigit then .ok (scanRun isDateChar numeral c cs)
    else if isWordStart c then .ok (scanRun isWordChar (fun t => .word (String.ofList t)) c cs)
    else .error (.unexpectedChar c position)

/-- The lexemes of a text that starts at byte `position`. -/
def lexFrom (position : Nat) (cs : List Char) : Except Error (List Lexeme) :=
  match cs with
  | [] => .ok []
  | c :: cs =>
    if Text.isBlank c then lexFrom (position + c.utf8Size) cs
    else
      match scan position c cs with
      | .error e => .error e
      | .ok s =>
        (lexFrom (position + Text.Utf8.size s.text) s.rest).map (⟨position, s.text, s.token⟩ :: ·)
termination_by cs.length
decreasing_by
  · simp
  · exact s.length_rest_lt

/-- The lexemes of a text. -/
def lex (text : String) : Except Error (List Lexeme) := lexFrom 0 text.toList

end Cimi.Filter
