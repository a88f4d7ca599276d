import Cimi.Json.Reader

/-!
# Passing over a JSON value

A value that nobody asks for is passed over without being built: its brackets have to match, but
its numbers may be out of range, its surrogates alone, and its containers as deep as they like.
-/

namespace Cimi.Json.Skip

open Text (Shorter Suffix)

open Reader

/-- The rest of a string, after its opening quote. -/
def string (cs : List Char) : Except Fault (Shorter cs) :=
  match cs with
  | [] => .error ⟨.eofInString, 0⟩
  | '"' :: cs => .ok (.tail '"' cs)
  | '\\' :: [] => .error ⟨.eofInString, 0⟩
  | '\\' :: 'u' :: cs =>
    match hexUnit cs with
    | .error e => .error e
    | .ok (_, rest) =>
      match string rest.1 with
      | .error e => .error e
      | .ok left => .ok (((rest.transShorter left).cons 'u').cons '\\')
  | '\\' :: c :: cs =>
    if c ∈ ['"', '\\', '/', 'b', 'f', 'n', 'r', 't'] then
      match string cs with
      | .error e => .error e
      | .ok rest => .ok ((rest.cons c).cons '\\')
    else .error (.here .invalidEscape (c :: cs))
  | c :: cs =>
    if c.toNat < 0x20 then .error (.here .controlCharacter (c :: cs))
    else match string cs with
      | .error e => .error e
      | .ok rest => .ok (rest.cons c)
termination_by cs.length
decreasing_by all_goals simp_all; try omega

/-- A run of at least one digit. -/
def digits1 (cs : List Char) : Except Fault (Suffix cs) :=
  match digits cs with
  | ([], rest) => .error (.here .invalidNumber rest.1)
  | (_ :: _, rest) => .ok rest

/-- A number from its exponent on, if it has one. -/
def exponent (cs : List Char) : Except Fault (Suffix cs) :=
  match cs with
  | [] => .ok (.all [])
  | c :: rest =>
    if c = 'e' || c = 'E' then
      let signless : Suffix rest := match rest with
        | '+' :: rest' => (Shorter.tail '+' rest').suffix
        | '-' :: rest' => (Shorter.tail '-' rest').suffix
        | rest' => .all rest'
      (digits1 signless.1).map fun left => ((signless.trans left).cons c).suffix
    else .ok (.all (c :: rest))

/-- A number, after its sign. -/
def number (cs : List Char) : Except Fault (Shorter cs) :=
  match cs with
  | [] => .error (.here .invalidNumber [])
  | c :: rest =>
    if !c.isDigit then .error (.here .invalidNumber (c :: rest))
    else
      let after : Suffix rest := if c = '0' then .all rest else (digits rest).2
      match after with
      | ⟨'.' :: frac, h⟩ =>
        match digits1 frac with
        | .error e => .error e
        | .ok left => (exponent left.1).map fun r =>
          ⟨r.1, by have h1 := left.2; have h2 := r.2; simp at h ⊢; omega⟩
      | ⟨left, h⟩ =>
        if c = '0' && left.head?.any Char.isDigit then .error (.here .invalidNumber left)
        else (exponent left).map fun r => ⟨r.1, Nat.lt_succ_of_le (Nat.le_trans r.2 h)⟩

/-- A value that is no container; `c` is its first character. -/
def scalar (c : Char) (cs : List Char) : Except Fault (Suffix cs) :=
  match c with
  | 'n' => ident ['u', 'l', 'l'] cs
  | 't' => ident ['r', 'u', 'e'] cs
  | 'f' => ident ['a', 'l', 's', 'e'] cs
  | '"' => (string cs).map Shorter.suffix
  | '-' => (number cs).map Shorter.suffix
  | _ =>
    if c.isDigit then (number (c :: cs)).map fun rest => rest.uncons
    else .error (.here .expectedValue (c :: cs))

/-- The kinds of containers. -/
inductive Bracket where
  | list
  | object
deriving DecidableEq, Repr

/-- The bracket that closes a container. -/
def Bracket.closing : Bracket → Char
  | .list => ']'
  | .object => '\x7d'

/-- The text ends inside a container. -/
def Bracket.eof : Bracket → Reason
  | .list => .eofInList
  | .object => .eofInObject

/-- Two items of a container are not separated. -/
def Bracket.noComma : Bracket → Reason
  | .list => .expectedListCommaOrEnd
  | .object => .expectedObjectCommaOrEnd

mutual

/-- Passes over a value that stands inside the given containers, and all that closes them. -/
def value (stack : List Bracket) (cs : List Char) : Except Fault (Shorter cs) :=
  match next cs with
  | none => .error ⟨.eofInValue, 0⟩
  | some (c, rest) =>
    if c = '[' then (opened .list stack rest.1).map rest.trans
    else if c = '\x7b' then (opened .object stack rest.1).map rest.trans
    else match scalar c rest.1 with
      | .error e => .error e
      | .ok after => (closed stack after.1).map fun left => rest.transSuffix (after.trans left)
termination_by (cs.length, 0)
decreasing_by all_goals simp [Prod.lex_def]; try omega

/-- Goes on after an opening bracket. -/
def opened (b : Bracket) (stack : List Bracket) (cs : List Char) : Except Fault (Shorter cs) :=
  match next cs with
  | none => .error ⟨b.eof, 0⟩
  | some (c, rest) =>
    if c = b.closing then (closed stack rest.1).map rest.transSuffix else item b stack cs
termination_by (cs.length, 2)
decreasing_by all_goals simp [Prod.lex_def]; try omega

/-- Passes over an item, with its key in an object. -/
def item (b : Bracket) (stack : List Bracket) (cs : List Char) : Except Fault (Shorter cs) :=
  match b with
  | .list => value (.list :: stack) cs
  | .object =>
    match next cs with
    | none => .error ⟨.eofInObject, 0⟩
    | some (c, rest) =>
      if c ≠ '"' then .error (.here .keyNotString (c :: rest.1))
      else match string rest.1 with
        | .error e => .error e
        | .ok after =>
          match next after.1 with
          | none => .error ⟨.eofInObject, 0⟩
          | some (d, member) =>
            if d ≠ ':' then .error (.here .expectedColon (d :: member.1))
            else (value (.object :: stack) member.1).map fun left =>
              rest.trans (after.trans (member.trans left))
termination_by (cs.length, 1)
decreasing_by all_goals simp [Prod.lex_def]; try omega

/-- Goes on after a value is complete. -/
def closed (stack : List Bracket) (cs : List Char) : Except Fault (Suffix cs) :=
  match stack with
  | [] => .ok (.all cs)
  | b :: outer =>
    match next cs with
    | none => .error ⟨b.eof, 0⟩
    | some (c, rest) =>
      if c = ',' then (item b outer rest.1).map fun left => (rest.trans left).suffix
      else if c = b.closing then
        (closed outer rest.1).map fun left => (rest.transSuffix left).suffix
      else .error (.here b.noComma (c :: rest.1))
termination_by (cs.length, 3)
decreasing_by all_goals simp [Prod.lex_def]; try omega

end

end Cimi.Json.Skip
