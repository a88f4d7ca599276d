import Cimi.Text.Percent

/-!
# Named fields

The query of a page and the forms that are sent to it are lists of named fields.  A field that is
known stands in the list at most once; a field that is not known is passed over.
-/

namespace Cimi.Web

/-- What is wrong with a list of fields. -/
inductive FieldsError where
  | duplicate (name : String)
  | missing (name : String)
deriving DecidableEq, Repr

/-- The words for what is wrong with a list of fields. -/
def FieldsError.message : FieldsError → String
  | .duplicate name => s!"duplicate field \x60{name}\x60"
  | .missing name => s!"missing field \x60{name}\x60"

namespace Fields

/-- The first known field that stands in the list again, after the fields seen so far. -/
def firstRepeated? (known : List String) :
    (seen : List String) → List (String × String) → Option String
  | _, [] => none
  | seen, (name, _) :: fields =>
    if name ∈ seen then some name
    else firstRepeated? known (if name ∈ known then name :: seen else seen) fields

/-- The fields of a query or a form, none of the known ones twice. -/
def parse (known : List String) (text : String) : Except FieldsError (List (String × String)) :=
  let fields := Text.Percent.formPairs text.toList
  match firstRepeated? known [] fields with
  | some name => .error (.duplicate name)
  | none => .ok fields

end Fields

/-- What the query of a page asks for. -/
structure Query where
  mode : Option String
  message : Option String
  filter : Option String
deriving DecidableEq, Repr

/-- The query that a text spells. -/
def Query.parse (text : String) : Except FieldsError Query := do
  let fields ← Fields.parse ["mode", "message", "filter"] text
  return ⟨fields.lookup "mode", fields.lookup "message", fields.lookup "filter"⟩

/-- What is sent to carry out an operation. -/
structure Form where
  /-- The reference of the page that holds the form. -/
  reference : String
  /-- The link of the operation. -/
  href : String
  /-- The name of the action. -/
  name : String
  /-- The reference that is shown after a deletion. -/
  parent : Option String
  /-- The text of the editor. -/
  json : String
deriving DecidableEq, Repr

/-- The form that a text spells; only the link has to be there. -/
def Form.parse (text : String) : Except FieldsError Form := do
  let fields ← Fields.parse ["reference", "href", "name", "parent", "json"] text
  let value (name : String) := (fields.lookup name).getD ""
  match fields.lookup "href" with
  | none => throw (.missing "href")
  | some href =>
    return ⟨value "reference", href, value "name", fields.lookup "parent", value "json"⟩

end Cimi.Web
