import Cimi.Document.Basic

/-!
# The cloud entry point

The content of the entry point is a list of links to the top of each collection, among other
values that are shown as they are.
-/

namespace Cimi

/-- A value as text: a string as it is, anything else as JSON. -/
def displayText : Json.Value → String
  | .string s => s
  | v => v.compact

/-- A field of the entry point. -/
inductive EntryLink where
  | resource (key href : String)
  | value (key text : String)
deriving DecidableEq, Repr

namespace EntryLink

/-- A field is a link if its value has a text `href`. -/
def ofField (key : String) (v : Json.Value) : EntryLink :=
  match (v.get? "href").bind Json.Value.string? with
  | some href => .resource key href
  | none => .value key (displayText v)

/-- What is shown of a field. -/
def label : EntryLink → String
  | .resource _ href => href
  | .value key text => s!"KEY: {key}, VALUE: {text}"

/-- Where a field leads. -/
def href? : EntryLink → Option String
  | .resource _ href => some href
  | .value _ _ => none

/-- The fields of the content, in the order of their keys. -/
def ofPartition (p : Partition) : List EntryLink := p.sortedContent.map fun m => ofField m.1 m.2

end EntryLink

end Cimi
