import Cimi.Filter.Token
import Cimi.Json.Decoder
import Cimi.Mode

/-!
# Errors

Everything that can go wrong between a user and a server.  An error has a headline and the message
that the user is shown, which is its most specific cause.
-/

namespace Cimi

/-- Why a field of a document cannot be read. -/
inductive FieldFault where
  | notString
  | notInteger
  | notCollection (typeName : String)
  | membersMissing
  | mismatch (m : Json.Mismatch)
  | stated (words : String)
deriving DecidableEq, Repr

/-- The words for why a field cannot be read. -/
def FieldFault.message : FieldFault → String
  | .notString => "expected a string"
  | .notInteger => "expected an integer"
  | .notCollection typeName => s!"\x60{typeName}\x60 is not a collection type"
  | .membersMissing => "missing from a non-empty collection"
  | .mismatch m => m.message
  | .stated words => words

/-- Why a document is not what this program needs. -/
inductive Malformed where
  | notAnObject
  | missingField (name : String)
  | invalidField (name : String) (fault : FieldFault)
deriving DecidableEq, Repr

/-- The words for why a document is malformed. -/
def Malformed.message : Malformed → String
  | .notAnObject => "document is not a JSON object"
  | .missingField name => s!"missing field \x60{name}\x60"
  | .invalidField name fault => s!"invalid field \x60{name}\x60: {fault.message}"

/-- What a server answered in place of success; the status is zero if there was no answer. -/
structure TransportError where
  status : Nat
  text : String
deriving DecidableEq, Repr

/-- The words for a transport error. -/
def TransportError.message (e : TransportError) : String := s!"{e.text}({e.status})"

/-- What can go wrong. -/
inductive Error where
  | transport (e : TransportError)
  | malformed (m : Malformed)
  | invalidJson (e : Json.SyntaxError)
  | filter (e : Filter.Error)
  | transition (r : Mode.Refusal)
  | missingOperation (name : String)
deriving DecidableEq, Repr

namespace Error

/-- What the user is shown. -/
def message : Error → String
  | .transport e => e.message
  | .malformed m => m.message
  | .invalidJson e => s!"invalid JSON: {e.message}"
  | .filter e => e.message
  | .transition r => r.message
  | .missingOperation name => s!"operation \x60{name}\x60 is not available"

/-- What kind of error it is, in words; two kinds have no words but their message. -/
def headline : Error → String
  | .transport _ => "transport error"
  | .malformed _ => "malformed document"
  | .filter _ => "invalid filter"
  | .transition _ => "invalid view transition"
  | e => e.message

end Error

end Cimi
