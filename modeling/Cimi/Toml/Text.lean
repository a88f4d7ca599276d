import Cimi.Text.Hex
import Cimi.Text.Rest

/-!
# Blanks, comments and strings of TOML

A string stands on one line between single marks or on several between triple marks.  Between
quotation marks a backslash escapes what follows it; between apostrophes every character stands for
itself.
-/

namespace Cimi.Toml

open Text (Shorter Suffix)

/-- A blank within a line. -/
def isBlank (c : Char) : Bool := c = ' ' || c = '\t'

/-- What follows the blanks at the start of a text. -/
def skipBlanks (cs : List Char) : List Char := cs.dropWhile isBlank

theorem length_dropWhile_le (p : Char → Bool) :
    ∀ cs : List Char, (cs.dropWhile p).length ≤ cs.length
  | [] => by simp
  | c :: cs => by
    rw [List.dropWhile_cons]
    split
    · exact Nat.le_succ_of_le (length_dropWhile_le p cs)
    · simp

theorem length_skipBlanks_le (cs : List Char) : (skipBlanks cs).length ≤ cs.length :=
  length_dropWhile_le isBlank cs

/-- What follows the end of a line, if a line ends here. -/
def lineBreak? : (cs : List Char) → Option (Shorter cs)
  | '\n' :: cs => some (.tail '\n' cs)
  | '\r' :: '\n' :: cs => some ((Shorter.tail '\n' cs).cons '\r')
  | _ => none

/-- Whether a character may stand in a string or a comment. -/
def isPlain (c : Char) : Bool := (' ' ≤ c && c ≠ '\x7F') || c = '\t'

/-- What follows a comment, if one stands here. -/
def skipComment : List Char → List Char
  | '#' :: cs => cs.dropWhile isPlain
  | cs => cs

theorem length_skipComment_le : ∀ cs : List Char, (skipComment cs).length ≤ cs.length
  | [] => by simp [skipComment]
  | c :: cs => by
    unfold skipComment
    split
    · next h =>
      obtain ⟨rfl, rfl⟩ := List.cons.inj h
      exact Nat.le_succ_of_le (length_dropWhile_le isPlain cs)
    · simp

/-- What follows blanks, comments and line breaks. -/
def skipLines (cs : List Char) : List Char :=
  match lineBreak? (skipComment (skipBlanks cs)) with
  | some after => skipLines after.1
  | none => skipBlanks cs
termination_by cs.length
decreasing_by
  have := after.2
  have := length_skipComment_le (skipBlanks cs)
  have := length_skipBlanks_le cs
  omega

/-- The character with the code that the next hexadecimal digits spell. -/
def codePoint (digits : Nat) (cs : List Char) : Option (Char × Suffix cs) :=
  let values := (cs.take digits).filterMap Text.Hex.value?
  let code := values.foldl (fun n d => n * 16 + d) 0
  if values.length = digits && (Char.ofNat code).toNat = code then
    some (Char.ofNat code, ⟨cs.drop digits, by simp⟩)
  else none

/-- The character behind an escape, after its backslash. -/
def escape : (cs : List Char) → Option (Char × Suffix cs)
  | [] => none
  | c :: cs =>
    let one (d : Char) : Option (Char × Suffix (c :: cs)) := some (d, (Shorter.tail c cs).suffix)
    let code (digits : Nat) : Option (Char × Suffix (c :: cs)) :=
      (codePoint digits cs).map fun (d, rest) => (d, (rest.cons c).suffix)
    match c with
    | 'b' => one '\x08'
    | 't' => one '\t'
    | 'n' => one '\n'
    | 'f' => one '\x0C'
    | 'r' => one '\r'
    | '"' => one '"'
    | '\\' => one '\\'
    | 'u' => code 4
    | 'U' => code 8
    | _ => none

/-- The rest of a string between quotation marks. -/
def quoted : List Char → Option (List Char × List Char)
  | [] => none
  | '"' :: cs => some ([], cs)
  | '\\' :: cs =>
    match escape cs with
    | some (c, rest) => (quoted rest.1).map fun (text, after) => (c :: text, after)
    | none => none
  | c :: cs => if isPlain c then (quoted cs).map fun (text, after) => (c :: text, after) else none
termination_by cs => cs.length
decreasing_by
  · exact Nat.lt_succ_of_le rest.2
  · simp

/-- The rest of a string between apostrophes. -/
def verbatim : List Char → Option (List Char × List Char)
  | [] => none
  | '\'' :: cs => some ([], cs)
  | c :: cs => if isPlain c then (verbatim cs).map fun (text, after) => (c :: text, after) else none

/-- The end of a string on several lines, after three of its marks: up to two more of them belong to
the string. -/
def closing (mark : Char) : List Char → List Char × List Char
  | c :: d :: cs =>
    if c ≠ mark then ([], c :: d :: cs)
    else if d = mark then ([mark, mark], cs)
    else ([mark], d :: cs)
  | [c] => if c = mark then ([mark], []) else ([], [c])
  | [] => ([], [])

/-- What follows blanks and line breaks. -/
def skipBreaks : List Char → List Char
  | [] => []
  | '\r' :: '\n' :: cs => skipBreaks cs
  | c :: cs => if isBlank c || c = '\n' then skipBreaks cs else c :: cs

theorem length_skipBreaks_le (cs : List Char) : (skipBreaks cs).length ≤ cs.length := by
  fun_induction skipBreaks cs <;> simp_all <;> omega

/-- What follows a backslash at the end of a line: the text goes on at the next character that is no
blank. -/
def continued? (cs : List Char) : Option (Suffix cs) :=
  (lineBreak? (skipBlanks cs)).map fun after =>
    ⟨skipBreaks after.1, by
      have := after.2
      have := length_skipBreaks_le after.1
      have := length_skipBlanks_le cs
      omega⟩

/-- The rest of a string on several lines between quotation marks. -/
def quotedLines : List Char → Option (List Char × List Char)
  | [] => none
  | '"' :: '"' :: '"' :: cs => some (closing '"' cs)
  | '\\' :: cs =>
    match continued? cs with
    | some rest => quotedLines rest.1
    | none => match escape cs with
      | some (c, rest) => (quotedLines rest.1).map fun (text, after) => (c :: text, after)
      | none => none
  | '\r' :: '\n' :: cs => (quotedLines cs).map fun (text, after) => ('\n' :: text, after)
  | c :: cs =>
    if isPlain c || c = '\n' then (quotedLines cs).map fun (text, after) => (c :: text, after)
    else none
termination_by cs => cs.length
decreasing_by
  · exact Nat.lt_succ_of_le rest.2
  · exact Nat.lt_succ_of_le rest.2
  all_goals simp; try omega

/-- The rest of a string on several lines between apostrophes. -/
def verbatimLines : List Char → Option (List Char × List Char)
  | [] => none
  | '\'' :: '\'' :: '\'' :: cs => some (closing '\'' cs)
  | '\r' :: '\n' :: cs => (verbatimLines cs).map fun (text, after) => ('\n' :: text, after)
  | c :: cs =>
    if isPlain c || c = '\n' then (verbatimLines cs).map fun (text, after) => (c :: text, after)
    else none

/-- A line break right after the first marks does not belong to the string. -/
def afterMarks (cs : List Char) : List Char := (lineBreak? cs).elim cs (·.1)

/-- A string on one line. -/
def lineString : List Char → Option (String × List Char)
  | '"' :: cs => (quoted cs).map fun (text, after) => (String.ofList text, after)
  | '\'' :: cs => (verbatim cs).map fun (text, after) => (String.ofList text, after)
  | _ => none

/-- A string. -/
def string : List Char → Option (String × List Char)
  | '"' :: '"' :: '"' :: cs =>
    (quotedLines (afterMarks cs)).map fun (text, after) => (String.ofList text, after)
  | '\'' :: '\'' :: '\'' :: cs =>
    (verbatimLines (afterMarks cs)).map fun (text, after) => (String.ofList text, after)
  | cs => lineString cs

end Cimi.Toml
