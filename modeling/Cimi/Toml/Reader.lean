import Cimi.Toml.Number
import Cimi.Toml.Table
import Cimi.Toml.Text

/-!
# Reading TOML

A document is a list of lines: each is a header, a key with its value, or neither, and may end in a
comment.  A value can go on over several lines.  Arrays and tables within a value are at most
`maxDepth` deep, and a dotted key has at most as many parts.
-/

namespace Cimi.Toml

/-- How deep a value may be. -/
def maxDepth : Nat := 79

/-- Whether a character may stand in a bare key. -/
def isBare (c : Char) : Bool := c.isAlphanum || c = '-' || c = '_'

/-- A key without dots. -/
def simpleKey (cs : List Char) : Option (String × List Char) :=
  if (cs.head?).any isBare then
    some (String.ofList (cs.takeWhile isBare), cs.dropWhile isBare)
  else lineString cs

/-- The parts of a key, with what follows it and its blanks. -/
def keyParts (cs : List Char) : Option (List String × List Char) := do
  let (key, rest) ← simpleKey (skipBlanks cs)
  match skipBlanks rest with
  | '.' :: after =>
    if _h : after.length < cs.length then
      let (keys, rest) ← keyParts after
      return (key :: keys, rest)
    else none
  | rest => return ([key], rest)
termination_by cs.length

/-- A key: the parts before its last dot, and the last part. -/
def key (cs : List Char) : Option ((List String × String) × List Char) := do
  let (keys, rest) ← keyParts cs
  match keys.reverse with
  | last :: before => if keys.length ≤ maxDepth then some ((before.reverse, last), rest) else none
  | [] => none

/-- The items of an array up to its closing bracket. -/
def items (item : List Char → Option (Value × List Char)) (cs : List Char) :
    Option (List Value × List Char) :=
  match skipLines cs with
  | ']' :: rest => some ([], rest)
  | start => do
    let (v, rest) ← item start
    match skipLines rest with
    | ']' :: rest => return ([v], rest)
    | ',' :: rest =>
      if _h : rest.length < cs.length then
        let (vs, rest) ← items item rest
        return (v :: vs, rest)
      else none
    | _ => none
termination_by cs.length

/-- A key with its value. -/
def entry (item : List Char → Option (Value × List Char)) (cs : List Char) :
    Option ((List String × String × Value) × List Char) := do
  let ((path, last), rest) ← key cs
  match rest with
  | '=' :: rest =>
    let (v, rest) ← item (skipBlanks rest)
    return ((path, last, v), rest)
  | _ => none

/-- The entries of a table in braces up to its closing brace, put into the fields so far. -/
def entries (item : List Char → Option (Value × List Char)) (fields : Fields) (cs : List Char) :
    Option (Fields × List Char) := do
  let ((path, last, v), rest) ← entry item cs
  let fields ← fields.insert path last v
  match skipBlanks rest with
  | '\x7d' :: rest => return (fields, rest)
  | ',' :: rest =>
    if _h : rest.length < cs.length then entries item fields rest else none
  | _ => none
termination_by cs.length

/-- A table in braces, after its opening brace. -/
def braced (item : List Char → Option (Value × List Char)) (cs : List Char) :
    Option (Value × List Char) :=
  match skipBlanks cs with
  | '\x7d' :: rest => some (.table [], rest)
  | _ => (entries item [] cs).map fun (fields, rest) => ((Node.table .defined fields).toValue, rest)

/-- A value that holds no other. -/
def scalar (cs : List Char) : Option (Value × List Char) :=
  match cs with
  | '"' :: _ | '\'' :: _ => (string cs).map fun (text, rest) => (.string text, rest)
  | 't' :: 'r' :: 'u' :: 'e' :: rest => some (.boolean, rest)
  | 'f' :: 'a' :: 'l' :: 's' :: 'e' :: rest => some (.boolean, rest)
  | cs => number cs

/-- A value at most so deep. -/
def value : (depth : Nat) → List Char → Option (Value × List Char)
  | depth + 1, '[' :: cs => (items (value depth) cs).map fun (vs, rest) => (.array vs, rest)
  | depth + 1, '\x7b' :: cs => braced (value depth) cs
  | _, cs => scalar cs

/-- What a line says. -/
inductive Statement where
  | header (path : List String) (last : String)
  | element (path : List String) (last : String)
  | entry (path : List String) (last : String) (v : Value)
  | nothing

/-- What the line at the start of a text says. -/
def statement (cs : List Char) : Option (Statement × List Char) :=
  match cs with
  | '[' :: '[' :: cs => do
    let ((path, last), rest) ← key cs
    match rest with
    | ']' :: ']' :: rest => return (.element path last, rest)
    | _ => none
  | '[' :: cs => do
    let ((path, last), rest) ← key cs
    match rest with
    | ']' :: rest => return (.header path last, rest)
    | _ => none
  | [] => some (.nothing, [])
  | c :: _ =>
    if c ∈ ['#', '\n', '\r'] then some (.nothing, cs)
    else (entry (value maxDepth) cs).map fun ((path, last, v), rest) => (.entry path last v, rest)

/-- What the lines of a text say. -/
def statements (cs : List Char) : Option (List Statement) := do
  let (said, rest) ← statement (skipBlanks cs)
  let rest := skipComment (skipBlanks rest)
  match rest, lineBreak? rest with
  | [], _ => return [said]
  | _, some after =>
    if _h : after.1.length < cs.length then return said :: (← statements after.1) else none
  | _, none => none
termination_by cs.length

/-- The fields read so far, and the table to which the next entries belong: its header's path and
key, if it has a header. -/
structure Reading where
  fields : Fields
  current : List String

/-- The reading after a line. -/
def Reading.step (r : Reading) : Statement → Option Reading
  | .nothing => some r
  | .header path last => (r.fields.define path last).map fun fields => ⟨fields, path ++ [last]⟩
  | .element path last => (r.fields.extend path last).map fun fields => ⟨fields, path ++ [last]⟩
  | .entry path last v =>
    (r.fields.change false (fun _ inner => inner.insert path last v) r.current .defined).map
      fun fields => { r with fields := fields }

/-- The fields of the table that a document spells. -/
def parse (text : String) : Option (List (String × Value)) := do
  let cs := match text.toList with
    | '\uFEFF' :: cs => cs
    | cs => cs
  let said ← statements cs
  let r ← said.foldlM Reading.step ⟨[], []⟩
  return Fields.toValues r.fields

end Cimi.Toml
