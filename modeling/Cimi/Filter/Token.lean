import Cimi.Filter.Basic

/-!
# The tokens of a filter

A token with its place and its very text is a lexeme, and the lexemes of a text are what the filter
is read from.  An error names what was expected and the token that stands in its place.
-/

namespace Cimi.Filter

/-- What a filter is written with. -/
inductive Token where
  | openParen
  | closeParen
  | openBracket
  | closeBracket
  | op (o : Op)
  | string (s : String)
  | int (digits : String)
  | date (text : String)
  | word (name : String)
deriving DecidableEq, Repr

/-- How an error names a token. -/
def Token.describe : Token → String
  | .openParen => "\x60(\x60"
  | .closeParen => "\x60)\x60"
  | .openBracket => "\x60[\x60"
  | .closeBracket => "\x60]\x60"
  | .op o => s!"\x60{o.symbol}\x60"
  | .string _ => "string"
  | .int digits => s!"\x60{digits}\x60"
  | .date text => s!"\x60{text}\x60"
  | .word name => s!"\x60{name}\x60"

/-- A token, the text it was read from, and the byte at which that text starts. -/
structure Lexeme where
  start : Nat
  text : List Char
  token : Token
deriving DecidableEq, Repr

/-- What can be expected at a place in a filter. -/
inductive Expected where
  | operand
  | operator
  | propertyKey
  | closeBracket
  | closeParen
  | endOfInput
  | integer
  | boolean
  | string
  | date
deriving DecidableEq, Repr

/-- The words for what is expected. -/
def Expected.message : Expected → String
  | .operand => "attribute or value"
  | .operator => "comparison operator"
  | .propertyKey => "property key"
  | .closeBracket => "\x60]\x60"
  | .closeParen => "\x60)\x60"
  | .endOfInput => "end of input"
  | .integer => "integer"
  | .boolean => "boolean"
  | .string => "string"
  | .date => "date"

/-- Why a text is no filter.  Positions count bytes. -/
inductive Error where
  | unexpectedChar (c : Char) (position : Nat)
  | unterminatedString (position : Nat)
  | unexpectedToken (expected : Expected) (found : Token) (position : Nat)
  | unexpectedEnd (expected : Expected)
  | integerOutOfRange (digits : String)
  | invalidDate (text : String) (reason : DateError)
  | noSingleAttribute (position : Nat)
deriving DecidableEq, Repr

/-- The words for an error. -/
def Error.message : Error → String
  | .unexpectedChar c position => s!"unexpected character \x60{c}\x60 at {position}"
  | .unterminatedString position => s!"unterminated string starting at {position}"
  | .unexpectedToken expected found position =>
    s!"expected {expected.message}, found {found.describe} at {position}"
  | .unexpectedEnd expected => s!"expected {expected.message}, found end of input"
  | .integerOutOfRange digits => s!"integer \x60{digits}\x60 out of range"
  | .invalidDate text reason => s!"invalid date \x60{text}\x60: {reason.message}"
  | .noSingleAttribute position => s!"comparison at {position} needs exactly one attribute"

/-- What stands in the place of the expected. -/
def Error.unexpected (expected : Expected) : List Lexeme → Error
  | [] => .unexpectedEnd expected
  | t :: _ => .unexpectedToken expected t.token t.start

end Cimi.Filter
