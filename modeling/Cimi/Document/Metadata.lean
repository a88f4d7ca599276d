import Cimi.Document.Acl
import Cimi.Document.Operation

/-!
# Metadata

The metadata half of a document with types.  A text of the wrong type counts as absent; an access
control list of the wrong shape is an error.
-/

namespace Cimi

/-- What every resource has. -/
structure Metadata where
  id : Option String
  created : Option String
  updated : Option String
  resourceUri : Option String
  name : Option String
  description : Option String
  operations : List Operation
  acl : Option Acl
  properties : Json.Members
  baseUri : Option String
deriving DecidableEq, Repr

namespace Metadata

/-- The access control list of the field `acl`; null counts as absent. -/
def aclOfField : Option Json.Value → Except Malformed (Option Acl)
  | none | some .null => .ok none
  | some v => match Acl.decoder.fromValue v with
    | .ok acl => .ok (some acl)
    | .error m => .error (.invalidField "acl" (.mismatch m))

/-- The metadata in the metadata half of a document. -/
def ofFields (fields : Json.Members) : Except Malformed Metadata := do
  let text (key : String) : Option String := (fields.get? key).bind Json.Value.string?
  let acl ← aclOfField (fields.get? "acl")
  return {
    id := text "id"
    created := text "created"
    updated := text "updated"
    resourceUri := text "resourceURI"
    name := text "name"
    description := text "description"
    operations := Operation.ofField (fields.get? "operations")
    acl := acl
    properties := ((fields.get? "properties").bind Json.Value.object?).getD []
    baseUri := text "baseURI" }

/-- The operation with a relation. -/
def operation? (m : Metadata) (rel : String) : Option Operation :=
  m.operations.find? (·.rel = rel)

end Metadata

end Cimi
