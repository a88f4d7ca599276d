import Cimi.Document.Basic

/-!
# Operations

A document offers operations as links with a relation.  Three relations have a meaning of their
own; any other names an action by its last part.
-/

namespace Cimi

/-- A link that a document offers. -/
structure Operation where
  rel : String
  href : String
deriving DecidableEq, Repr

namespace Operation

/-- What an operation does. -/
inductive Kind where
  | edit
  | add
  | delete
  | action (name : String)
deriving DecidableEq, Repr

/-- The label of an operation. -/
def name (o : Operation) : String := afterLastSlash o.rel

/-- What an operation does. -/
def kind (o : Operation) : Kind :=
  match o.rel with
  | "edit" => .edit
  | "add" => .add
  | "delete" => .delete
  | _ => .action o.name

/-- The operation of an entry that has a relation and a link, neither of them empty. -/
def ofEntry? (entry : Json.Value) : Option Operation := do
  let rel ← (← entry.get? "rel").string?
  let href ← (← entry.get? "href").string?
  if rel.toList.isEmpty || href.toList.isEmpty then none else some ⟨rel, href⟩

/-- The operations of the field `operations`; entries that are none are left out. -/
def ofField : Option Json.Value → List Operation
  | some (.array entries) => entries.filterMap ofEntry?
  | _ => []

/-- How an operation is read where it has to be one. -/
def decoder : Json.Decoder Operation := .record
  { name := "OperationDescriptor"
    start := ((none, none) : Option String × Option String)
    fields :=
      [⟨"rel", true, Json.Decoder.string.map fun s b => (some s, b.2)⟩,
       ⟨"href", true, Json.Decoder.string.map fun s b => (b.1, some s)⟩]
    finish := fun b => do
      return ⟨← Json.Decoder.require "rel" b.1, ← Json.Decoder.require "href" b.2⟩ }

/-- An operation as a value. -/
def toValue (o : Operation) : Json.Value :=
  .object [("rel", .string o.rel), ("href", .string o.href)]

end Operation

end Cimi
