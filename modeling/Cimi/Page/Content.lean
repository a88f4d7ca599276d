import Cimi.Document.Collection
import Cimi.Document.EntryPoint
import Cimi.Document.Metadata
import Cimi.Location

/-!
# What a page shows of a document

Metadata is shown as terms with their descriptions.  The content of the entry point is a list of
links, that of a collection a table of its members, and that of any other resource its fields.
-/

namespace Cimi

/-- A term with its description. -/
structure Term where
  term : String
  description : String
deriving DecidableEq, Repr

namespace Term

/-- A text that is there and not empty is a term. -/
def ofText? (label : String) : Option String → Option Term
  | some text => if text.toList.isEmpty then none else some ⟨label, text⟩
  | none => none

/-- A property is named in quotes, and so is its value. -/
def ofProperty (m : String × Json.Value) : Term :=
  ⟨s!"\"{m.1}\" (property)", s!"\"{displayText m.2}\""⟩

/-- The terms of the metadata. -/
def ofMetadata (m : Metadata) : List Term :=
  [ofText? "created" m.created, ofText? "updated" m.updated, ofText? "name" m.name,
    ofText? "description" m.description].filterMap id ++ m.properties.map ofProperty

end Term

/-- A link; a value that leads nowhere has no URL. -/
structure Link where
  label : String
  url : Option String
deriving DecidableEq, Repr

/-- A member in the table of a collection. -/
structure Row where
  tag : String
  url : String
  name : String
  description : String
deriving DecidableEq, Repr

/-- The table of a collection. -/
structure Table where
  count : Int
  rows : List Row
deriving DecidableEq, Repr

namespace Table

/-- The row of a member. -/
def row (l : Location) (e : CollectionEntry) : Row :=
  ⟨e.tag, l.resourceViewUrl ⟨e.id⟩, e.name.getD "", e.description.getD ""⟩

/-- The table of a collection. -/
def ofCollection (l : Location) (c : Collection) : Table := ⟨c.count, c.entries.map (row l)⟩

/-- Whether the collection says that it has no members. -/
def isEmpty (t : Table) : Bool := t.count ≤ 0

/-- The line above the table, or in its place. -/
def summary (t : Table) : String := if t.isEmpty then "No items." else s!"Count: {t.count}"

end Table

/-- The content of a page. -/
inductive Content where
  | entryPoint (links : List Link)
  | collection (table : Table)
  | item (terms : List Term)
deriving DecidableEq, Repr

namespace Content

/-- The link of a field of the entry point. -/
def link (l : Location) (e : EntryLink) : Link :=
  ⟨e.label, e.href?.map fun href => l.resourceViewUrl ⟨href⟩⟩

/-- The content of a document of a kind and type. -/
def ofPartition (l : Location) (kind : Kind) (typeName : String) (p : Partition) :
    Except Malformed Content :=
  match kind with
  | .entryPoint => .ok (.entryPoint ((EntryLink.ofPartition p).map (link l)))
  | .collection => (Collection.ofContent typeName p.content).map fun c =>
    .collection (.ofCollection l c)
  | .item => .ok (.item (p.sortedContent.map fun m => ⟨m.1, displayText m.2⟩))

end Content

end Cimi
