import Cimi.Text.Utf8

/-!
# What is wrong with a JSON text

A fault has a reason and the number of bytes that stand behind it; where in the text it lies
follows from the two together (`Fault.locate`).  Lines count from one, and a column is the number
of bytes of its line up to the fault and with it.
-/

namespace Cimi.Json

/-- Why a text is no JSON. -/
inductive Reason where
  | eofInValue
  | eofInList
  | eofInObject
  | eofInString
  | expectedValue
  | expectedIdent
  | expectedColon
  | expectedListCommaOrEnd
  | expectedObjectCommaOrEnd
  | keyNotString
  | trailingComma
  | trailingCharacters
  | invalidNumber
  | numberOutOfRange
  | invalidEscape
  | loneSurrogate
  | unfinishedSurrogate
  | controlCharacter
  | tooDeep
deriving DecidableEq, Repr

/-- The words for a reason. -/
def Reason.message : Reason → String
  | .eofInValue => "EOF while parsing a value"
  | .eofInList => "EOF while parsing a list"
  | .eofInObject => "EOF while parsing an object"
  | .eofInString => "EOF while parsing a string"
  | .expectedValue => "expected value"
  | .expectedIdent => "expected ident"
  | .expectedColon => "expected \x60:\x60"
  | .expectedListCommaOrEnd => "expected \x60,\x60 or \x60]\x60"
  | .expectedObjectCommaOrEnd => "expected \x60,\x60 or \x60\x7d\x60"
  | .keyNotString => "key must be a string"
  | .trailingComma => "trailing comma"
  | .trailingCharacters => "trailing characters"
  | .invalidNumber => "invalid number"
  | .numberOutOfRange => "number out of range"
  | .invalidEscape => "invalid escape"
  | .loneSurrogate => "lone leading surrogate in hex escape"
  | .unfinishedSurrogate => "unexpected end of hex escape"
  | .controlCharacter => "control character (\\u0000-\\u001F) found while parsing a string"
  | .tooDeep => "recursion limit exceeded"

/-- Whether the text ends too early. -/
def Reason.isEof : Reason → Bool
  | .eofInValue | .eofInList | .eofInObject | .eofInString => true
  | _ => false

/-- A reason, and how many bytes of the text come after the byte at fault. -/
structure Fault where
  reason : Reason
  behind : Nat
deriving DecidableEq, Repr

/-- A fault at the first byte of what is left of the text. -/
def Fault.here (reason : Reason) (left : List Char) : Fault := ⟨reason, Text.Utf8.size left - 1⟩

/-- A fault right before what is left of the text. -/
def Fault.before (reason : Reason) (left : List Char) : Fault := ⟨reason, Text.Utf8.size left⟩

/-- The line and the column reached after the given number of bytes. -/
def position (line column : Nat) : List Char → (bytes : Nat) → Nat × Nat
  | [], _ => (line, column)
  | c :: cs, bytes =>
    if bytes = 0 then (line, column)
    else if bytes < c.utf8Size then (line, column + bytes)
    else if c = '\n' then position (line + 1) 0 cs (bytes - 1)
    else position line (column + c.utf8Size) cs (bytes - c.utf8Size)

/-- A fault with its place in a text. -/
structure SyntaxError where
  reason : Reason
  line : Nat
  column : Nat
deriving DecidableEq, Repr

/-- The place of a fault in the text that has it. -/
def Fault.locate (text : List Char) (f : Fault) : SyntaxError :=
  let (line, column) := position 1 0 text (Text.Utf8.size text - f.behind)
  ⟨f.reason, line, column⟩

/-- The words for a syntax error. -/
def SyntaxError.message (e : SyntaxError) : String :=
  s!"{e.reason.message} at line {e.line} column {e.column}"

end Cimi.Json
