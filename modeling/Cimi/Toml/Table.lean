import Cimi.Toml.Value

/-!
# Tables that are being read

A document defines its tables by headers and by dotted keys.  A table is defined once: a header
defines it, or a dotted key begins it and other dotted keys go on with it.  A table that is only on
the way to another can still be defined by its own header.  An array of tables grows by headers, and
a path through it goes through its newest table.
-/

namespace Cimi.Toml

/-- How a table has come to be. -/
inductive Origin where
  /-- By its own header, or by its own braces. -/
  | defined
  /-- On the way to a table that has a header. -/
  | passed
  /-- By a dotted key. -/
  | dotted
deriving DecidableEq, Repr

/-- What stands under a key. -/
inductive Node where
  | value (v : Value)
  | table (origin : Origin) (fields : List (String × Node))
  /-- An array of tables, the newest first. -/
  | tables (elements : List (List (String × Node)))

/-- The fields of a table that is being read. -/
abbrev Fields : Type := List (String × Node)

namespace Fields

/-- Puts a node under a key. -/
def put (fields : Fields) (key : String) (node : Node) : Fields :=
  (key, node) :: fields.filter (·.1 ≠ key)

/-- Changes the table at a path below a table of some origin; tables that are missing on the way
are made.  A path of dotted keys does not enter a table that is defined elsewhere. -/
def change (isDotted : Bool) (f : Origin → Fields → Option Fields) :
    (path : List String) → Origin → Fields → Option Fields
  | [], origin, fields => f origin fields
  | key :: path, _, fields => do
    let node ← match fields.lookup key with
      | none =>
        let origin := if isDotted then .dotted else .passed
        (change isDotted f path origin []).map (.table origin)
      | some (.table origin inner) =>
        if isDotted && origin = .defined then none
        else (change isDotted f path origin inner).map (.table origin)
      | some (.tables (newest :: older)) =>
        (change isDotted f path .defined newest).map fun newest => .tables (newest :: older)
      | some (.tables []) | some (.value _) => none
    return fields.put key node

/-- Puts a value under a new key of a table.  The table behind dots was begun by dotted keys. -/
def insert (fields : Fields) (path : List String) (key : String) (v : Value) : Option Fields :=
  change true (fun origin inner =>
    if (decide (origin = .dotted) == path.isEmpty) || (inner.lookup key).isSome then none
    else some (inner.put key (.value v))) path .defined fields

/-- Defines a table by its header. -/
def define (fields : Fields) (path : List String) (key : String) : Option Fields :=
  change false (fun _ inner =>
    match inner.lookup key with
    | none => some (inner.put key (.table .defined []))
    | some (.table .passed below) => some (inner.put key (.table .defined below))
    | _ => none) path .defined fields

/-- Adds a table to an array of tables by its header. -/
def extend (fields : Fields) (path : List String) (key : String) : Option Fields :=
  change false (fun _ inner =>
    match inner.lookup key with
    | none => some (inner.put key (.tables [[]]))
    | some (.tables elements) => some (inner.put key (.tables ([] :: elements)))
    | _ => none) path .defined fields

end Fields

mutual

/-- The value that a node has become. -/
def Node.toValue : Node → Value
  | .value v => v
  | .table _ fields => .table (Fields.toValues fields)
  | .tables elements => .array (Fields.toTables elements).reverse

/-- The fields of a table with their values. -/
def Fields.toValues : List (String × Node) → List (String × Value)
  | [] => []
  | (key, node) :: fields => (key, node.toValue) :: Fields.toValues fields

/-- The tables of an array, in the same order. -/
def Fields.toTables : List (List (String × Node)) → List Value
  | [] => []
  | fields :: elements => .table (Fields.toValues fields) :: Fields.toTables elements

end

end Cimi.Toml
