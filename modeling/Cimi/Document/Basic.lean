import Cimi.Error
import Cimi.Json.Reader
import Cimi.Json.Printer
import Cimi.Text.Split

/-!
# Documents

A document is a JSON object that describes a resource.  Its `resourceURI` names its type, and the
type decides how it is shown (`Document.kind`).  The fields that every resource has are its
metadata, all others its content; the partition of a document into the two can be joined again.
-/

namespace Cimi

/-- The last part of a text between slashes. -/
def afterLastSlash (s : String) : String :=
  match Text.cutLast '/' s.toList with
  | some (_, after) => String.ofList after
  | none => s

/-- How a document is shown. -/
inductive Kind where
  | entryPoint
  | collection
  | item
deriving DecidableEq, Repr

namespace Kind

/-- The type of the cloud entry point. -/
def entryPointType : String := "CloudEntryPoint"

/-- What the types of collections end with. -/
def collectionEnding : String := "Collection"

/-- How documents of a type are shown. -/
def ofTypeName (typeName : String) : Kind :=
  if typeName = entryPointType then .entryPoint
  else if collectionEnding.toList.isSuffixOf typeName.toList then .collection
  else .item

/-- The words for a kind. -/
def label : Kind → String
  | .entryPoint => "entry point"
  | .collection => "collection"
  | .item => "item"

end Kind

/-- The description of a resource. -/
structure Document where
  fields : Json.Members
deriving DecidableEq, Repr

namespace Document

/-- The fields that every resource has. -/
def metadataKeys : List String :=
  ["id", "created", "updated", "resourceURI", "name", "description", "operations", "acl",
   "properties", "baseURI"]

/-- Whether a field is metadata. -/
def isMetadataKey (key : String) : Bool := key ∈ metadataKeys

/-- The document that a value is. -/
def ofValue : Json.Value → Except Malformed Document
  | .object fields => .ok ⟨fields⟩
  | _ => .error .notAnObject

/-- The document that a text spells. -/
def parse (text : String) : Except Error Document :=
  match Json.parse text with
  | .ok v => (ofValue v).mapError .malformed
  | .error e => .error (.invalidJson e)

/-- The document as a value. -/
def toValue (d : Document) : Json.Value := .object d.fields

/-- The document on indented lines. -/
def pretty (d : Document) : String := d.toValue.pretty

/-- The field that names the type of a document. -/
def typeField : String := "resourceURI"

/-- The address that names the type of a document. -/
def resourceUri (d : Document) : Except Malformed String :=
  match d.fields.get? typeField with
  | some (.string uri) => .ok uri
  | some _ => .error (.invalidField typeField .notString)
  | none => .error (.missingField typeField)

/-- The type of a document. -/
def typeName (d : Document) : Except Malformed String := d.resourceUri.map afterLastSlash

/-- How a document is shown. -/
def kind (d : Document) : Except Malformed Kind := d.typeName.map Kind.ofTypeName

end Document

/-- The two halves of a document, and all its keys in order. -/
structure Partition where
  metadata : Json.Members
  content : Json.Members
  order : List String
deriving DecidableEq, Repr

namespace Partition

/-- Parts a document. -/
def ofDocument (d : Document) : Partition where
  metadata := d.fields.filter fun m => Document.isMetadataKey m.1
  content := d.fields.filter fun m => !Document.isMetadataKey m.1
  order := d.fields.map (·.1)

/-- Whether a member does not come after another in the order of keys. -/
def keyLe (a b : String × Json.Value) : Bool := a.1 ≤ b.1

/-- The content in the order of its keys. -/
def sortedContent (p : Partition) : Json.Members := p.content.mergeSort keyLe

/-- Takes the value of a key out of the half that it belongs to. -/
def take (p : Partition) (key : String) : Option Json.Value × Partition :=
  if Document.isMetadataKey key then
    (p.metadata.get? key, { p with metadata := p.metadata.remove key })
  else (p.content.get? key, { p with content := p.content.remove key })

/-- Moves the values of the given keys out of the halves, one after the other. -/
def joinInto (fields : Json.Members) (p : Partition) : List String → Json.Members
  | [] => fields
  | key :: keys =>
    match p.take key with
    | (some value, p) => joinInto (fields.put key value) p keys
    | (none, p) => joinInto fields p keys

/-- The document with the fields of both halves in order. -/
def join (p : Partition) : Document := ⟨joinInto [] p p.order⟩

end Partition

end Cimi
