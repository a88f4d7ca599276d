import Cimi.Json.Printer
import Cimi.Json.Skip
import Cimi.Text.Quoted

/-!
# Typed values

A decoder reads values of a type, either from a JSON value (`Decoder.fromValue`) or straight from a
text (`Decoder.fromText`).  The two agree on what they accept, save that a text can repeat a field
or give a record too long a list, which a value cannot or does in other words.  What is wrong is a
mismatch, or in a text a fault as well; the first in the order of the text counts.
-/

namespace Cimi.Json

open Text (Shorter Suffix)

/-- What a value of the wrong type is. -/
inductive Found where
  | null
  | bool (b : Bool)
  | number (n : Number)
  | string (s : String)
  | list
  | object
deriving DecidableEq, Repr

/-- What a value is. -/
def Found.ofValue : Value → Found
  | .null => .null
  | .bool b => .bool b
  | .number n => .number n
  | .string s => .string s
  | .array _ => .list
  | .object _ => .object

/-- The words for what a value is. -/
def Found.message : Found → String
  | .null => "null"
  | .bool b => s!"boolean \x60{b}\x60"
  | .number (.int z) => s!"integer \x60{z}\x60"
  | .number (.double d) => s!"floating point \x60{String.ofList (writeDouble d)}\x60"
  | .string s => s!"string {Text.Quoted.quote s}"
  | .list => "sequence"
  | .object => "map"

/-- Why a value is not of the type asked for. -/
inductive Mismatch where
  | type (found : Found) (expected : String)
  | length (found : Nat) (expected : String)
  | missing (field : String)
  | duplicate (field : String)
  | unknownVariant (name : String) (known : List String)
deriving DecidableEq, Repr

/-- The words for a mismatch. -/
def Mismatch.message : Mismatch → String
  | .type found expected => s!"invalid type: {found.message}, expected {expected}"
  | .length found expected => s!"invalid length {found}, expected {expected}"
  | .missing field => s!"missing field \x60{field}\x60"
  | .duplicate field => s!"duplicate field \x60{field}\x60"
  | .unknownVariant name known =>
    let choices := ", ".intercalate (known.map fun k => s!"\x60{k}\x60")
    s!"unknown variant \x60{name}\x60, expected one of {choices}"

/-- Why a text does not spell a value of the type asked for. -/
inductive DecodeError where
  | fault (f : Fault)
  | mismatch (m : Mismatch)
deriving DecidableEq, Repr

/-- The words for why a text does not spell a value, without its place. -/
def DecodeError.message : DecodeError → String
  | .fault f => f.reason.message
  | .mismatch m => m.message

/-- Two ways of reading values of a type. -/
structure Decoder (α : Type) where
  fromValue : Value → Except Mismatch α
  fromText : (cs : List Char) → Except DecodeError (α × Shorter cs)

namespace Decoder

variable {α β : Type}

/-- Runs a reading step that knows only faults. -/
def lift (r : Except Fault α) : Except DecodeError α := r.mapError .fault

/-- Says what stands in a text in place of what was expected. -/
def refuse (expected : String) (cs : List Char) : DecodeError :=
  match Reader.next cs with
  | none => .fault ⟨.eofInValue, 0⟩
  | some ('[', _) => .mismatch (.type .list expected)
  | some ('\x7b', _) => .mismatch (.type .object expected)
  | some (c, rest) =>
    match Reader.scalar c rest.1 with
    | .ok (v, _) => .mismatch (.type (.ofValue v) expected)
    | .error f => .fault f

/-- Applies a function to what is read. -/
def map (f : α → β) (d : Decoder α) : Decoder β where
  fromValue v := (d.fromValue v).map f
  fromText cs := (d.fromText cs).map fun (x, rest) => (f x, rest)

/-- A string. -/
def string : Decoder String where
  fromValue
    | .string s => .ok s
    | v => .error (.type (.ofValue v) "a string")
  fromText cs :=
    match Reader.next cs with
    | some ('"', rest) =>
      lift ((Reader.string rest.1).map fun (s, left) => (s, rest.trans left))
    | _ => .error (refuse "a string" cs)

/-- A value, or null for none. -/
def nullable (d : Decoder α) : Decoder (Option α) where
  fromValue
    | .null => .ok none
    | v => (d.fromValue v).map some
  fromText cs :=
    match Reader.next cs with
    | some ('n', rest) =>
      lift ((Reader.ident ['u', 'l', 'l'] rest.1).map fun left => (none, rest.transSuffix left))
    | _ => (d.fromText cs).map fun (x, rest) => (some x, rest)

/-- Where the next item of a list stands in a text; none at its closing bracket. -/
def nextItem (first : Bool) (cs : List Char) : Except Fault (Option (Suffix cs)) :=
  match Reader.next cs with
  | none => .error ⟨.eofInList, 0⟩
  | some (c, rest) =>
    if c = ']' then .ok none
    else if first then .ok (some (.all cs))
    else if c = ',' then
      match Reader.next rest.1 with
      | none => .error ⟨.eofInValue, 0⟩
      | some (d, rest') =>
        if d = ']' then .error (.here .trailingComma (d :: rest'.1))
        else .ok (some rest.suffix)
    else .error (.here .expectedListCommaOrEnd (c :: rest.1))

/-- The closing bracket of a list. -/
def endList (cs : List Char) : Except Fault (Shorter cs) :=
  match Reader.next cs with
  | none => .error ⟨.eofInList, 0⟩
  | some (c, rest) =>
    if c = ']' then .ok rest
    else if c = ',' then
      match Reader.next rest.1 with
      | some (']', rest') => .error (.here .trailingComma (']' :: rest'.1))
      | some (d, rest') => .error (.here .trailingCharacters (d :: rest'.1))
      | none => .error ⟨.trailingCharacters, 0⟩
    else .error (.here .trailingCharacters (c :: rest.1))

/-- The items of a list in a text, up to its closing bracket. -/
def itemsText (d : Decoder α) (first : Bool) (cs : List Char) :
    Except DecodeError (List α × Suffix cs) :=
  match nextItem first cs with
  | .error f => .error (.fault f)
  | .ok none => .ok ([], .all cs)
  | .ok (some item) =>
    match d.fromText item.1 with
    | .error e => .error e
    | .ok (x, rest) =>
      (itemsText d false rest.1).map fun (xs, left) =>
        (x :: xs, item.trans (rest.transSuffix left).suffix)
termination_by cs.length

/-- A list of values of one type. -/
def list (d : Decoder α) : Decoder (List α) where
  fromValue
    | .array items => items.mapM d.fromValue
    | v => .error (.type (.ofValue v) "a sequence")
  fromText cs :=
    match Reader.next cs with
    | some ('[', rest) => do
      let (xs, left) ← itemsText d true rest.1
      let after ← lift (endList left.1)
      return (xs, rest.transSuffix (left.transShorter after).suffix)
    | _ => .error (refuse "a sequence" cs)

/-- A field of a record, which changes what has been read of the record so far. -/
structure Field (β : Type) where
  key : String
  required : Bool
  set : Decoder (β → β)

/-- A record: its name, its fields in the order in which a list gives them, what it is before any
field is read, and what it is in the end. -/
structure Record (β α : Type) where
  name : String
  fields : List (Field β)
  start : β
  finish : β → Except Mismatch α

namespace Record

variable {β α : Type}

/-- The words for a record. -/
def expected (r : Record β α) : String := s!"struct {r.name}"

/-- The words for a record given as a list. -/
def expectedLength (r : Record β α) : String :=
  s!"struct {r.name} with {r.fields.length} elements"

/-- The field of a key. -/
def field? (r : Record β α) (key : String) : Option (Field β) := r.fields.find? (·.key = key)

/-- Reads the members of an object in order; keys that are no fields are passed over. -/
def fromMembers (r : Record β α) : β → Members → Except Mismatch β
  | b, [] => .ok b
  | b, (k, v) :: ms =>
    match r.field? k with
    | none => fromMembers r b ms
    | some f =>
      match f.set.fromValue v with
      | .error e => .error e
      | .ok g => fromMembers r (g b) ms

/-- Reads the items of a list into the fields; `taken` fields are read already, and `length` is the
length of the whole list. -/
def fromItems (r : Record β α) (length : Nat) :
    (taken : Nat) → List (Field β) → β → List Value → Except Mismatch β
  | _, [], b, [] => .ok b
  | _, [], _, _ :: _ => .error (.length length "fewer elements in array")
  | taken, f :: fs, b, [] =>
    if f.required then .error (.length taken r.expectedLength)
    else fromItems r length (taken + 1) fs b []
  | taken, f :: fs, b, v :: vs =>
    match f.set.fromValue v with
    | .error e => .error e
    | .ok g => fromItems r length (taken + 1) fs (g b) vs

/-- Reads a record from a value. -/
def fromValue (r : Record β α) : Value → Except Mismatch α
  | .object ms => (r.fromMembers r.start ms).bind r.finish
  | .array items => (r.fromItems items.length 0 r.fields r.start items).bind r.finish
  | v => .error (.type (.ofValue v) r.expected)

/-- The key of the next member in a text, with what follows it; none after the closing bracket. -/
def nextKey (first : Bool) (cs : List Char) : Except Fault (Option String × Shorter cs) :=
  let keyAt (c : Char) (rest : Shorter cs) : Except Fault (Option String × Shorter cs) :=
    if c = '"' then
      (Reader.string rest.1).map fun (k, left) => (some k, rest.trans left)
    else .error (.here .keyNotString (c :: rest.1))
  match Reader.next cs with
  | none => .error ⟨.eofInObject, 0⟩
  | some (c, rest) =>
    if c = '\x7d' then .ok (none, rest)
    else if first then keyAt c rest
    else if c = ',' then
      match Reader.next rest.1 with
      | none => .error ⟨.eofInValue, 0⟩
      | some (d, rest') =>
        if d = '\x7d' then .error (.here .trailingComma (d :: rest'.1))
        else keyAt d (rest.trans rest')
    else .error (.here .expectedObjectCommaOrEnd (c :: rest.1))

/-- The colon after a key. -/
def colon (cs : List Char) : Except Fault (Shorter cs) :=
  match Reader.next cs with
  | none => .error ⟨.eofInObject, 0⟩
  | some (c, rest) =>
    if c = ':' then .ok rest else .error (.here .expectedColon (c :: rest.1))

/-- Reads the members of an object in a text, through its closing bracket; `seen` are the fields
that were read already. -/
def membersText (r : Record β α) (seen : List String) (b : β) (cs : List Char) :
    Except DecodeError (β × Shorter cs) :=
  match nextKey seen.isEmpty cs with
  | .error f => .error (.fault f)
  | .ok (none, rest) => .ok (b, rest)
  | .ok (some k, rest) =>
    match r.field? k with
    | none =>
      match colon rest.1 with
      | .error f => .error (.fault f)
      | .ok item =>
        match Skip.value [] item.1 with
        | .error f => .error (.fault f)
        | .ok after =>
          (membersText r (k :: seen) b after.1).map fun (b, left) =>
            (b, rest.trans (item.trans (after.trans left)))
    | some f =>
      if k ∈ seen then .error (.mismatch (.duplicate k))
      else match colon rest.1 with
        | .error f => .error (.fault f)
        | .ok item =>
          match f.set.fromText item.1 with
          | .error e => .error e
          | .ok (g, after) =>
            (membersText r (k :: seen) (g b) after.1).map fun (b, left) =>
              (b, rest.trans (item.trans (after.trans left)))
termination_by cs.length

/-- Reads the items of a list in a text into the fields, up to its closing bracket. -/
def itemsText (r : Record β α) : (taken : Nat) → List (Field β) → β → (cs : List Char) →
    Except DecodeError (β × Suffix cs)
  | _, [], b, cs => .ok (b, .all cs)
  | taken, f :: fs, b, cs =>
    match nextItem (taken = 0) cs with
    | .error e => .error (.fault e)
    | .ok none =>
      if f.required then .error (.mismatch (.length taken r.expectedLength))
      else itemsText r (taken + 1) fs b cs
    | .ok (some item) =>
      match f.set.fromText item.1 with
      | .error e => .error e
      | .ok (g, rest) =>
        (itemsText r (taken + 1) fs (g b) rest.1).map fun (b, left) =>
          (b, item.trans (rest.transSuffix left).suffix)

/-- Reads a record from the start of a text. -/
def fromText (r : Record β α) (cs : List Char) : Except DecodeError (α × Shorter cs) :=
  let done (b : β) (rest : Shorter cs) : Except DecodeError (α × Shorter cs) :=
    match r.finish b with
    | .ok x => .ok (x, rest)
    | .error m => .error (.mismatch m)
  match Reader.next cs with
  | some ('\x7b', rest) => do
    let (b, left) ← r.membersText [] r.start rest.1
    done b (rest.trans left)
  | some ('[', rest) => do
    let (b, left) ← r.itemsText 0 r.fields r.start rest.1
    let (x, _) ← done b (rest.transSuffix left)
    let after ← lift (endList left.1)
    return (x, rest.transSuffix (left.transShorter after).suffix)
  | _ => .error (refuse r.expected cs)

end Record

/-- A record. -/
def record (r : Record β α) : Decoder α := ⟨r.fromValue, r.fromText⟩

/-- The value of a field that has to be there. -/
def require (field : String) : Option α → Except Mismatch α
  | some x => .ok x
  | none => .error (.missing field)

/-- The only key of an object in a text, after its opening brace. -/
def onlyKey (cs : List Char) : Except Fault (String × Shorter cs) :=
  match Reader.next cs with
  | none => .error ⟨.eofInObject, 0⟩
  | some ('"', rest) => (Reader.string rest.1).map fun (s, left) => (s, rest.trans left)
  | some ('\x7d', rest) => .error (.here .expectedValue ('\x7d' :: rest.1))
  | some (c, rest) => .error (.here .keyNotString (c :: rest.1))

/-- Reads one of the given names from the start of a text: a string, or an object with the name as
its only key and null as its value. -/
def variantText (names : List String) (cs : List Char) :
    Except DecodeError (String × Shorter cs) :=
  let known (s : String) : Except DecodeError Unit :=
    if s ∈ names then .ok () else .error (.mismatch (.unknownVariant s names))
  match Reader.next cs with
  | none => .error (.fault ⟨.eofInValue, 0⟩)
  | some ('"', rest) => do
    let (s, left) ← lift (Reader.string rest.1)
    known s
    return (s, rest.trans left)
  | some ('\x7b', rest) => do
    let (s, left) ← lift (onlyKey rest.1)
    known s
    let item ← lift (Record.colon left.1)
    match Reader.next item.1 with
    | some ('n', rest') =>
      let after ← lift (Reader.ident ['u', 'l', 'l'] rest'.1)
      match Reader.next after.1 with
      | some (c, end_) =>
        if c = '\x7d' then
          .ok (s, rest.trans (left.trans (item.trans
            (rest'.transSuffix (after.transShorter end_).suffix))))
        else .error (.fault (.before .expectedValue (c :: end_.1)))
      | none => .error (.fault ⟨.eofInObject, 0⟩)
    | _ => .error (refuse "unit" item.1)
  | some (c, rest) => .error (.fault (.here .expectedValue (c :: rest.1)))

/-- Reads an object of any members from the start of a text. -/
def membersText (cs : List Char) : Except DecodeError (Members × List Char) :=
  match Reader.next cs with
  | some ('\x7b', _) =>
    match Reader.value [] cs with
    | .ok (.object ms, rest) => .ok (ms, rest)
    | .ok (v, _) => .error (.mismatch (.type (.ofValue v) "a map"))
    | .error f => .error (.fault f)
  | _ => .error (refuse "a map" cs)

/-- Reads a whole text, after whose value there is nothing but white space. -/
def whole (read : List Char → Except DecodeError (α × List Char)) (text : String) :
    Except DecodeError α := do
  let (x, rest) ← read text.toList
  lift (Reader.finish rest)
  return x

end Decoder

end Cimi.Json
