import Cimi.Json.Fault
import Cimi.Json.Value
import Cimi.Text.Decimal
import Cimi.Text.Hex
import Cimi.Text.Rest

/-!
# Reading JSON

A text is read from its start with a stack of the containers that are still open.  `value` reads
what begins a value, `close` puts a finished value into the container around it; each call takes at
least one character off the text, so the reading ends.  A scalar is read by a function of its own
that hands back a rest no longer than what it was given.
-/

namespace Cimi.Json

open Text (Shorter Suffix)

namespace Reader

/-- The white space of JSON. -/
def isSpace (c : Char) : Bool := c = ' ' || c = '\n' || c = '\t' || c = '\r'

/-- The next character that is no white space, with what follows it. -/
def next : (cs : List Char) → Option (Char × Shorter cs)
  | [] => none
  | c :: cs =>
    if isSpace c then (next cs).map fun (d, rest) => (d, rest.cons c)
    else some (c, .tail c cs)

/-- The code unit that the next four bytes spell. -/
def hexUnit : (cs : List Char) → Except Fault (Nat × Suffix cs)
  | a :: b :: c :: d :: rest =>
    match Text.Hex.value? a, Text.Hex.value? b, Text.Hex.value? c, Text.Hex.value? d with
    | some w, some x, some y, some z =>
      .ok (((w * 16 + x) * 16 + y) * 16 + z, ⟨rest, by simp only [List.length_cons]; omega⟩)
    | _, _, _, _ =>
      .error ⟨.invalidEscape, Text.Utf8.size (a :: b :: c :: d :: rest) - 4⟩
  | cs => .error (if Text.Utf8.size cs < 4 then ⟨.eofInString, 0⟩
      else ⟨.invalidEscape, Text.Utf8.size cs - 4⟩)

/-- Whether a code unit begins a pair. -/
def isLeading (unit : Nat) : Bool := 0xD800 ≤ unit && unit ≤ 0xDBFF

/-- Whether a code unit ends a pair. -/
def isTrailing (unit : Nat) : Bool := 0xDC00 ≤ unit && unit ≤ 0xDFFF

/-- The second code unit of a pair. -/
def trailingUnit : (cs : List Char) → Except Fault (Nat × Suffix cs)
  | '\\' :: 'u' :: cs =>
    match hexUnit cs with
    | .ok (unit, rest) =>
      if isTrailing unit then .ok (unit, ((rest.cons 'u').cons '\\').suffix)
      else .error (.before .loneSurrogate rest.1)
    | .error e => .error e
  | '\\' :: [] | [] => .error ⟨.eofInString, 0⟩
  | '\\' :: cs => .error (.here .unfinishedSurrogate cs)
  | cs => .error (.here .unfinishedSurrogate cs)

/-- The character of an escape `\u`, whose digits come first. -/
def unicodeEscape (cs : List Char) : Except Fault (Char × Suffix cs) :=
  match hexUnit cs with
  | .error e => .error e
  | .ok (unit, rest) =>
    if isTrailing unit then .error (.before .loneSurrogate rest.1)
    else if isLeading unit then
      match trailingUnit rest.1 with
      | .error e => .error e
      | .ok (low, rest') =>
        .ok (Char.ofNat ((unit - 0xD800) * 0x400 + (low - 0xDC00) + 0x10000),
          rest.trans rest')
    else .ok (Char.ofNat unit, rest)

/-- The character of an escape, after its backslash. -/
def escape : (cs : List Char) → Except Fault (Char × Suffix cs)
  | [] => .error ⟨.eofInString, 0⟩
  | c :: cs =>
    let simple (d : Char) : Except Fault (Char × Suffix (c :: cs)) :=
      .ok (d, (Shorter.tail c cs).suffix)
    match c with
    | '"' => simple '"'
    | '\\' => simple '\\'
    | '/' => simple '/'
    | 'b' => simple '\x08'
    | 'f' => simple '\x0C'
    | 'n' => simple '\n'
    | 'r' => simple '\r'
    | 't' => simple '\t'
    | 'u' =>
      match unicodeEscape cs with
      | .ok (d, rest) => .ok (d, (rest.cons c).suffix)
      | .error e => .error e
    | _ => .error (.here .invalidEscape (c :: cs))

/-- The rest of a string, after its opening quote. -/
def stringChars (cs : List Char) : Except Fault (List Char × Shorter cs) :=
  match cs with
  | [] => .error ⟨.eofInString, 0⟩
  | '"' :: cs => .ok ([], .tail '"' cs)
  | '\\' :: cs =>
    match escape cs with
    | .error e => .error e
    | .ok (c, rest) =>
      match stringChars rest.1 with
      | .error e => .error e
      | .ok (text, left) => .ok (c :: text, (rest.transShorter left).cons '\\')
  | c :: cs =>
    if c.toNat < 0x20 then .error (.here .controlCharacter (c :: cs))
    else match stringChars cs with
      | .error e => .error e
      | .ok (text, rest) => .ok (c :: text, rest.cons c)
termination_by cs.length
decreasing_by
  · exact Nat.lt_succ_of_le rest.2
  · exact Nat.lt_succ_self _

/-- The rest of a string, after its opening quote. -/
def string (cs : List Char) : Except Fault (String × Shorter cs) :=
  match stringChars cs with
  | .error e => .error e
  | .ok (text, rest) => .ok (String.ofList text, rest)

/-- The remaining letters of a name such as `true`. -/
def ident : (letters cs : List Char) → Except Fault (Suffix cs)
  | [], cs => .ok (.all cs)
  | _ :: _, [] => .error ⟨.eofInValue, 0⟩
  | l :: letters, c :: cs =>
    if l = c then
      match ident letters cs with
      | .ok rest => .ok (rest.cons c).suffix
      | .error e => .error e
    else .error (.here .expectedIdent (c :: cs))

/-- The digits at the start of a text and what follows them. -/
def digits (cs : List Char) : List Char × Suffix cs :=
  (cs.takeWhile Char.isDigit, ⟨cs.dropWhile Char.isDigit, (List.dropWhile_sublist _).length_le⟩)

/-- The greatest significand: beyond it, further digits are dropped. -/
def maxSignificand : Nat := 0xFFFFFFFFFFFFFFFF

/-- Appends digits to a significand while it stays in range; also tells how many did not fit. -/
def pushDigits : (significand : Nat) → List Char → Nat × Nat
  | s, [] => (s, 0)
  | s, d :: ds =>
    let s' := s * 10 + Text.Decimal.digitValue d
    if s' ≤ maxSignificand then pushDigits s' ds else (s, (d :: ds).length)

/-- The double next to `x * 10 ^ exponent`, in one multiplication or in divisions by at most
`1e308` each; none if it is too great. -/
def scaleByPowerOfTen (x : Magnitude) (exponent : Int) : Option Magnitude :=
  if exponent.natAbs ≤ 308 then
    if 0 ≤ exponent then x.mul (.powerOfTen exponent.natAbs)
    else x.div (.powerOfTen exponent.natAbs)
  else if x.mantissa = 0 then some x
  else if 0 ≤ exponent then none
  else scaleByPowerOfTen ((x.div (.powerOfTen 308)).getD .zero) (exponent + 308)
termination_by exponent.natAbs
decreasing_by omega

/-- The number `significand * 10 ^ exponent`, read right before `rest`. -/
def double (negative : Bool) (significand : Nat) (exponent : Int) (rest : List Char) :
    Except Fault Number :=
  match (Magnitude.ofRatio significand 1).bind (scaleByPowerOfTen · exponent) with
  | some x => .ok (.double ⟨negative, x⟩)
  | none => .error (.before .numberOutOfRange rest)

/-- The greatest exponent that is read as a number. -/
def maxExponent : Nat := 0x7FFFFFFF

/-- The number that a run of digits names, or what follows the digit with which it is beyond
`maxExponent`. -/
def exponentValue : (sofar : Nat) → List Char → Except (List Char) Nat
  | n, [] => .ok n
  | n, d :: ds =>
    let n' := n * 10 + Text.Decimal.digitValue d
    if n' ≤ maxExponent then exponentValue n' ds else .error ds

/-- A number from its exponent on, after the `e`; the digits before have the value
`significand * 10 ^ scale`. -/
def exponent (negative : Bool) (significand : Nat) (scale : Int) (cs : List Char) :
    Except Fault (Number × Suffix cs) :=
  let (down, ⟨signless, hs⟩) : Bool × Suffix cs :=
    match cs with
    | '+' :: rest => (false, (Shorter.tail '+' rest).suffix)
    | '-' :: rest => (true, (Shorter.tail '-' rest).suffix)
    | cs => (false, .all cs)
  match signless, hs with
  | [], _ => .error ⟨.eofInValue, 0⟩
  | c :: rest, hs =>
    if c.isDigit then
      let (ds, after) := digits (c :: rest)
      let done (n : Number) : Number × Suffix cs := (n, ⟨after.1, Nat.le_trans after.2 hs⟩)
      match exponentValue 0 ds with
      | .ok e =>
        match double negative significand (if down then scale - e else scale + e) after.1 with
        | .ok n => .ok (done n)
        | .error e => .error e
      | .error unread =>
        if significand ≠ 0 && !down then .error (.before .numberOutOfRange (unread ++ after.1))
        else .ok (done (.double ⟨negative, .zero⟩))
    else .error (.here .invalidNumber (c :: rest))

/-- A number from its fraction on, after the point. -/
def fraction (negative : Bool) (significand : Nat) (scale : Int) (cs : List Char) :
    Except Fault (Number × Suffix cs) :=
  let (ds, after) := digits cs
  if ds.isEmpty then
    .error (if after.1.isEmpty then ⟨.eofInValue, 0⟩ else .here .invalidNumber after.1)
  else
    let (significand, dropped) := pushDigits significand ds
    let scale := scale - Int.ofNat (ds.length - dropped)
    match after with
    | ⟨'e' :: rest, h⟩ | ⟨'E' :: rest, h⟩ =>
      match exponent negative significand scale rest with
      | .ok (n, rest') => .ok (n, ⟨rest'.1, by have := rest'.2; simp at h; omega⟩)
      | .error e => .error e
    | ⟨rest, h⟩ =>
      match double negative significand scale rest with
      | .ok n => .ok (n, ⟨rest, h⟩)
      | .error e => .error e

/-- The number of an integer literal: an integer if it is in range, and a double otherwise. -/
def integer (negative : Bool) (significand : Nat) : Number :=
  if negative then
    if significand = 0 || 0x8000000000000000 < significand then
      .double ⟨true, (Magnitude.ofRatio significand 1).getD .zero⟩
    else .int (-significand)
  else .int significand

/-- A number from what follows its whole digits on; `dropped` of these digits did not fit into the
significand. -/
def afterWhole (negative : Bool) (significand dropped : Nat) (cs : List Char) :
    Except Fault (Number × Suffix cs) :=
  match cs with
  | '.' :: frac =>
    match fraction negative significand dropped frac with
    | .ok (n, left) => .ok (n, (left.cons '.').suffix)
    | .error e => .error e
  | 'e' :: expo =>
    match exponent negative significand dropped expo with
    | .ok (n, left) => .ok (n, (left.cons 'e').suffix)
    | .error e => .error e
  | 'E' :: expo =>
    match exponent negative significand dropped expo with
    | .ok (n, left) => .ok (n, (left.cons 'E').suffix)
    | .error e => .error e
  | cs =>
    if cs.head?.any Char.isDigit then .error (.here .invalidNumber cs)
    else if dropped = 0 then .ok (integer negative significand, .all cs)
    else match double negative significand dropped cs with
      | .ok n => .ok (n, .all cs)
      | .error e => .error e

/-- The whole digits of a number that begins with the digit `c`; after a zero there are no more. -/
def whole (c : Char) (cs : List Char) : List Char × Suffix cs :=
  if c = '0' then ([c], .all cs) else (c :: (digits cs).1, (digits cs).2)

/-- A number, after its sign. -/
def number (negative : Bool) (cs : List Char) : Except Fault (Number × Shorter cs) :=
  match cs with
  | [] => .error ⟨.eofInValue, 0⟩
  | c :: rest =>
    if !c.isDigit then .error (.here .invalidNumber (c :: rest))
    else
      let (ds, after) := whole c rest
      let (significand, dropped) := pushDigits 0 ds
      match afterWhole negative significand dropped after.1 with
      | .ok (n, left) => .ok (n, (after.trans left).cons c)
      | .error e => .error e

/-- A value that is no container; `c` is its first character. -/
def scalar (c : Char) (cs : List Char) : Except Fault (Value × Suffix cs) :=
  match c with
  | 'n' => (ident ['u', 'l', 'l'] cs).map (Value.null, ·)
  | 't' => (ident ['r', 'u', 'e'] cs).map (Value.bool true, ·)
  | 'f' => (ident ['a', 'l', 's', 'e'] cs).map (Value.bool false, ·)
  | '"' => (string cs).map fun (s, rest) => (.string s, rest.suffix)
  | '-' => (number true cs).map fun (n, rest) => (.number n, rest.suffix)
  | _ =>
    if c.isDigit then
      (number false (c :: cs)).map fun (n, rest) => (.number n, rest.uncons)
    else .error (.here .expectedValue (c :: cs))

/-- A container that is not closed yet. -/
inductive Frame where
  /-- A list with its items so far, the last one first. -/
  | items (done : List Value)
  /-- An object with its members so far, and the key whose value is being read. -/
  | members (done : Members) (key : String)
deriving Repr

/-- How many containers may be open at once. -/
def maxDepth : Nat := 127

/-- The key of a member and its colon, after the opening quote of the key. -/
def key (cs : List Char) : Except Fault (String × Shorter cs) :=
  match string cs with
  | .error e => .error e
  | .ok (k, rest) =>
    match next rest.1 with
    | none => .error ⟨.eofInObject, 0⟩
    | some (c, rest') =>
      if c = ':' then .ok (k, rest.trans rest') else .error (.here .expectedColon (c :: rest'.1))

mutual

/-- Reads a value that stands inside the containers of `stack`, and all that closes them. -/
def value (stack : List Frame) (cs : List Char) : Except Fault (Value × List Char) :=
  match next cs with
  | none => .error ⟨.eofInValue, 0⟩
  | some (c, rest) =>
    if c = '[' then
      if stack.length = maxDepth then .error (.here .tooDeep (c :: rest.1))
      else match next rest.1 with
        | none => .error ⟨.eofInList, 0⟩
        | some (d, rest') =>
          if d = ']' then close stack (.array []) rest'.1
          else value (.items [] :: stack) rest.1
    else if c = '\x7b' then
      if stack.length = maxDepth then .error (.here .tooDeep (c :: rest.1))
      else match next rest.1 with
        | none => .error ⟨.eofInObject, 0⟩
        | some (d, rest') =>
          if d = '\x7d' then close stack (.object []) rest'.1
          else if d = '"' then
            match key rest'.1 with
            | .error e => .error e
            | .ok (k, after) => value (.members [] k :: stack) after.1
          else .error (.here .keyNotString (d :: rest'.1))
    else match scalar c rest.1 with
      | .error e => .error e
      | .ok (v, rest') => close stack v rest'.1
termination_by (cs.length, 0)
decreasing_by all_goals simp only [Prod.lex_def]; omega

/-- Puts a value into the container around it and reads on until all containers are closed. -/
def close (stack : List Frame) (v : Value) (cs : List Char) : Except Fault (Value × List Char) :=
  match stack with
  | [] => .ok (v, cs)
  | .items done :: stack =>
    match next cs with
    | none => .error ⟨.eofInList, 0⟩
    | some (c, rest) =>
      if c = ']' then close stack (.array (v :: done).reverse) rest.1
      else if c = ',' then
        match next rest.1 with
        | none => .error ⟨.eofInValue, 0⟩
        | some (d, rest') =>
          if d = ']' then .error (.here .trailingComma (d :: rest'.1))
          else value (.items (v :: done) :: stack) rest.1
      else .error (.here .expectedListCommaOrEnd (c :: rest.1))
  | .members done k :: stack =>
    match next cs with
    | none => .error ⟨.eofInObject, 0⟩
    | some (c, rest) =>
      if c = '\x7d' then close stack (.object (Members.put k v done)) rest.1
      else if c = ',' then
        match next rest.1 with
        | none => .error ⟨.eofInValue, 0⟩
        | some (d, rest') =>
          if d = '\x7d' then .error (.here .trailingComma (d :: rest'.1))
          else if d = '"' then
            match key rest'.1 with
            | .error e => .error e
            | .ok (k', after) => value (.members (Members.put k v done) k' :: stack) after.1
          else .error (.here .keyNotString (d :: rest'.1))
      else .error (.here .expectedObjectCommaOrEnd (c :: rest.1))
termination_by (cs.length, 1)
decreasing_by all_goals simp only [Prod.lex_def]; omega

end

/-- Refuses anything but white space after a value. -/
def finish (cs : List Char) : Except Fault Unit :=
  match next cs with
  | none => .ok ()
  | some (c, rest) => .error (.here .trailingCharacters (c :: rest.1))

end Reader

/-- The value that a text spells. -/
def parseChars (text : List Char) : Except SyntaxError Value :=
  let read := do
    let (v, rest) ← Reader.value [] text
    Reader.finish rest
    return v
  read.mapError (Fault.locate text)

/-- The value that a text spells. -/
def parse (text : String) : Except SyntaxError Value := parseChars text.toList

end Cimi.Json
