import Cimi.Document.Operation
import Cimi.Location

/-!
# Buttons

Every page can show its JSON, and every operation of the resource adds buttons of its own.  A button
belongs to one mode and is seen in that mode only.
-/

namespace Cimi

/-- What a button does. -/
inductive Command where
  | startView
  | finishView
  | startEdit
  | saveEdit (href : String)
  | cancelEdit
  | startAdd
  | saveAdd (href : String)
  | cancelAdd
  /-- Deletes what the link leads to; then the parent is shown. -/
  | delete (href : String) (parent : Reference)
  | action (name href : String)
deriving DecidableEq, Repr

namespace Command

/-- The link to which an edited resource is saved. -/
def editTarget? : Command → Option String
  | .saveEdit href => some href
  | _ => none

/-- The link to which a new resource is added. -/
def addTarget? : Command → Option String
  | .saveAdd href => some href
  | _ => none

/-- The link that is deleted, and what is shown then. -/
def deleteTarget? : Command → Option (String × Reference)
  | .delete href parent => some (href, parent)
  | _ => none

/-- The link of the action of a name. -/
def actionTarget? (name : String) : Command → Option String
  | .action n href => if n = name then some href else none
  | _ => none

end Command

/-- A button; one that stands for an operation knows the URL of its server. -/
structure Button where
  label : String
  mode : Mode
  command : Command
  url : Option String
deriving DecidableEq, Repr

namespace Button

/-- The buttons of an operation. -/
def ofOperation (l : Location) (b : Endpoint) (o : Operation) : List Button :=
  let url := some (b.resolve o.href)
  match o.kind with
  | .edit =>
    [⟨o.name, .normal, .startEdit, url⟩, ⟨"save", .editing, .saveEdit o.href, url⟩,
      ⟨"cancel", .editing, .cancelEdit, none⟩]
  | .add =>
    [⟨o.name, .normal, .startAdd, url⟩, ⟨"save", .adding, .saveAdd o.href, url⟩,
      ⟨"cancel", .adding, .cancelAdd, none⟩]
  | .delete => [⟨o.name, .normal, .delete o.href l.reference.parent, url⟩]
  | .action name => [⟨name, .normal, .action name o.href, url⟩]

/-- The buttons of a page with the given operations. -/
def all (l : Location) (b : Endpoint) (operations : List Operation) : List Button :=
  ⟨"view json", .normal, .startView, none⟩ :: ⟨"done", .viewing, .finishView, none⟩ ::
    operations.flatMap (ofOperation l b)

end Button

end Cimi
