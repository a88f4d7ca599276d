import Cimi.Editor
import Cimi.Page.Button
import Cimi.Page.Content

/-!
# Pages

A page is all that is needed to show a resource, however it is drawn.  It is made of the document,
the location at which it is viewed, the base of its server and the mode.
-/

namespace Cimi

/-- The line shown in the place of an access control list. -/
def noAcl : String := "No explicit ACL."

/-- What is shown of a resource. -/
structure Page where
  title : String
  kind : Kind
  mode : Mode
  reference : String
  viewUrl : String
  resourceUrl : String
  trail : List Crumb
  metadata : List Term
  buttons : List Button
  acl : Option (List AclRule)
  content : Content
  json : String
  editor : String
deriving DecidableEq, Repr

namespace Page

/-- The page of a document. -/
def build (l : Location) (b : Endpoint) (d : Document) (m : Mode) : Except Malformed Page := do
  let title ← d.typeName
  let kind := Kind.ofTypeName title
  let partition := Partition.ofDocument d
  let metadata ← Metadata.ofFields partition.metadata
  let content ← Content.ofPartition l kind title partition
  return {
    title := title
    kind := kind
    mode := m
    reference := l.reference.text
    viewUrl := l.viewUrl
    resourceUrl := b.fetchUrl l.reference
    trail := l.trail
    metadata := Term.ofMetadata metadata
    buttons := Button.all l b metadata.operations
    acl := metadata.acl.map Acl.rows
    content := content
    json := d.pretty
    editor := if m = .adding then Editor.addTemplate.text else d.pretty }

/-- The buttons that are seen in the mode of the page. -/
def visibleButtons (p : Page) : List Button := p.buttons.filter (·.mode = p.mode)

/-- What the first button with such a command does. -/
def command? {α : Type} (p : Page) (select : Command → Option α) : Option α :=
  p.buttons.findSome? fun button => select button.command

end Page

end Cimi
