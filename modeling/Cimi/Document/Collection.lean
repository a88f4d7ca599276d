import Cimi.Document.Basic
import Cimi.Text.Lowercase

/-!
# Collections

A collection keeps its members in a field that is named after their type, in the plural, and may
say how many there are.  Without that field, the first list among its content holds the members.
-/

namespace Cimi

/-- The English plural of a word. -/
def plural (word : List Char) : List Char :=
  if ["s", "x", "z", "ch", "sh"].any fun ending => ending.toList.isSuffixOf word then
    word ++ ['e', 's']
  else match word.reverse with
    | 'y' :: before :: rest =>
      if before ∈ ['a', 'e', 'i', 'o', 'u'] then word ++ ['s']
      else (before :: rest).reverse ++ ['i', 'e', 's']
    | _ => word ++ ['s']

/-- The name of the members in the type of a collection; none if the type is no collection's. -/
def memberType? (typeName : String) : Option (List Char) :=
  let ending := Kind.collectionEnding.toList
  if ending.isSuffixOf typeName.toList then
    some (typeName.toList.take (typeName.toList.length - ending.length))
  else none

/-- The field that holds the members of a collection of a type. -/
def itemsField? (typeName : String) : Option String :=
  match memberType? typeName with
  | some (first :: rest) => some (String.ofList (plural (Text.lowercase first ++ rest)))
  | _ => none

/-- A member of a collection. -/
structure CollectionEntry where
  id : String
  name : Option String
  description : Option String
deriving DecidableEq, Repr

namespace CollectionEntry

/-- The texts of a member: its id, its name and its description. -/
abbrev Texts : Type := Option String × Option String × Option String

/-- The fields of a member. -/
def record : Json.Decoder.Record Texts CollectionEntry where
  name := "CollectionEntry"
  start := (none, none, none)
  fields :=
    [⟨"id", true, Json.Decoder.string.map fun s b => (some s, b.2)⟩,
     ⟨"name", false, (Json.Decoder.nullable .string).map fun s b => (b.1, s, b.2.2)⟩,
     ⟨"description", false, (Json.Decoder.nullable .string).map fun s b => (b.1, b.2.1, s)⟩]
  finish := fun b => do return ⟨← Json.Decoder.require "id" b.1, b.2.1, b.2.2⟩

/-- How a member is read. -/
def decoder : Json.Decoder CollectionEntry := .record record

/-- Whether a text has the length of a UUID and is written with lower-case digits and dashes. -/
def looksLikeUuid (cs : List Char) : Bool :=
  cs.length = 36 && cs.all fun c => c.isDigit || ('a' ≤ c && c ≤ 'f') || c = '-'

/-- The short name of a member: the last part of its id, of a UUID the first eight characters. -/
def tag (e : CollectionEntry) : String :=
  let last := afterLastSlash e.id
  if looksLikeUuid last.toList then String.ofList (last.toList.take 8) else last

end CollectionEntry

/-- The members of a collection and their count. -/
structure Collection where
  count : Int
  itemsField : String
  entries : List CollectionEntry
deriving DecidableEq, Repr

namespace Collection

/-- The least and the greatest count. -/
def countRange : Int × Int := (-0x8000000000000000, 0x7FFFFFFFFFFFFFFF)

/-- The count of the field `count`; null counts as absent. -/
def countOfField : Option Json.Value → Except Malformed (Option Int)
  | none | some .null => .ok none
  | some v => match v.int? with
    | some z => if countRange.1 ≤ z ∧ z ≤ countRange.2 then .ok (some z)
      else .error (.invalidField "count" .notInteger)
    | none => .error (.invalidField "count" .notInteger)

/-- The field that holds the members: the derived one if it is there, else the first list. -/
def membersField (derived : String) (content : Json.Members) : String :=
  if (content.get? derived).isSome then derived
  else ((content.find? fun m => m.2.array?.isSome).map (·.1)).getD derived

/-- The collection in the content half of a document. -/
def ofContent (typeName : String) (content : Json.Members) : Except Malformed Collection := do
  let derived ← (itemsField? typeName).elim
    (.error (.invalidField Document.typeField (.notCollection typeName))) .ok
  let count ← countOfField (content.get? "count")
  let field := membersField derived content
  let entries ← match content.get? field with
    | some v => ((Json.Decoder.list CollectionEntry.decoder).fromValue v).mapError fun m =>
      .invalidField field (.mismatch m)
    | none =>
      if count.getD 0 ≤ 0 then .ok [] else .error (.invalidField field .membersMissing)
  return ⟨count.getD (Int.ofNat entries.length), field, entries⟩

/-- Whether a collection says that it has no members. -/
def isEmpty (c : Collection) : Bool := c.count ≤ 0

end Collection

end Cimi
