import Cimi.Json.Decoder

/-!
# Access control lists

Who may do what with a resource.  The owner may do everything, and each rule gives one right to one
principal.
-/

namespace Cimi

/-- A user or a role. -/
structure Principal where
  principal : String
  kind : String
deriving DecidableEq, Repr

namespace Principal

/-- How a principal is read. -/
def decoder : Json.Decoder Principal := .record
  { name := "Principal"
    start := ((none, none) : Option String × Option String)
    fields :=
      [⟨"principal", true, Json.Decoder.string.map fun s b => (some s, b.2)⟩,
       ⟨"type", true, Json.Decoder.string.map fun s b => (b.1, some s)⟩]
    finish := fun b => do
      return ⟨← Json.Decoder.require "principal" b.1, ← Json.Decoder.require "type" b.2⟩ }

/-- A principal as a value. -/
def toValue (p : Principal) : Json.Value :=
  .object [("principal", .string p.principal), ("type", .string p.kind)]

end Principal

/-- A right of a principal; a row of the list as it is shown. -/
structure AclRule where
  principal : String
  kind : String
  right : String
deriving DecidableEq, Repr

namespace AclRule

/-- How a rule is read. -/
def decoder : Json.Decoder AclRule := .record
  { name := "AclRule"
    start := ((none, none, none) : Option String × Option String × Option String)
    fields :=
      [⟨"principal", true, Json.Decoder.string.map fun s b => (some s, b.2)⟩,
       ⟨"type", true, Json.Decoder.string.map fun s b => (b.1, some s, b.2.2)⟩,
       ⟨"right", true, Json.Decoder.string.map fun s b => (b.1, b.2.1, some s)⟩]
    finish := fun b => do
      return ⟨← Json.Decoder.require "principal" b.1, ← Json.Decoder.require "type" b.2.1,
        ← Json.Decoder.require "right" b.2.2⟩ }

/-- A rule as a value. -/
def toValue (r : AclRule) : Json.Value :=
  .object [("principal", .string r.principal), ("type", .string r.kind), ("right", .string r.right)]

end AclRule

/-- An access control list. -/
structure Acl where
  owner : Principal
  rules : List AclRule
deriving DecidableEq, Repr

namespace Acl

/-- How a list is read; without rules it has none. -/
def decoder : Json.Decoder Acl := .record
  { name := "Acl"
    start := ((none, []) : Option Principal × List AclRule)
    fields :=
      [⟨"owner", true, Principal.decoder.map fun p b => (some p, b.2)⟩,
       ⟨"rules", false, (Json.Decoder.list AclRule.decoder).map fun rs b => (b.1, rs)⟩]
    finish := fun b => do return ⟨← Json.Decoder.require "owner" b.1, b.2⟩ }

/-- A list as a value. -/
def toValue (a : Acl) : Json.Value :=
  .object [("owner", a.owner.toValue), ("rules", .array (a.rules.map AclRule.toValue))]

/-- The right of the owner. -/
def ownerRight : String := "ALL"

/-- The rows that are shown: the owner's, then one for each rule. -/
def rows (a : Acl) : List AclRule := ⟨a.owner.principal, a.owner.kind, ownerRight⟩ :: a.rules

end Acl

end Cimi
