import Cimi.Json.Shortest
import Cimi.Json.Value
import Cimi.Text.Decimal
import Cimi.Text.Hex

/-!
# Writing JSON

A value is written without any space (`Value.compact`) or with each item and each member on a line
of its own, indented by two spaces for each container around it (`Value.pretty`).  Both are one
function of a `Layout`, which says what stands at the breaks.
-/

namespace Cimi.Json

/-- A string is written with escapes for quotes, backslashes and control characters. -/
def escapeChar (c : Char) : List Char :=
  match c with
  | '"' => ['\\', '"']
  | '\\' => ['\\', '\\']
  | '\x08' => ['\\', 'b']
  | '\x0C' => ['\\', 'f']
  | '\n' => ['\\', 'n']
  | '\r' => ['\\', 'r']
  | '\t' => ['\\', 't']
  | c =>
    if c.toNat < 0x20 then
      ['\\', 'u', '0', '0', Text.Hex.lower (c.toNat / 16), Text.Hex.lower (c.toNat % 16)]
    else [c]

/-- A string in its quotes. -/
def quote (s : String) : List Char := '"' :: s.toList.flatMap escapeChar ++ ['"']

/-- An integer in decimal. -/
def writeInt (z : Int) : List Char :=
  if 0 ≤ z then Text.Decimal.digits z.toNat else '-' :: Text.Decimal.digits (-z).toNat

/-- How doubles are written. -/
structure DoubleFormat where
  /-- Positional from this place of the first digit on; one is right before the point. -/
  leastPlace : Int
  /-- Positional up to this place of the first digit. -/
  greatestPlace : Int
  /-- What stands before an exponent that is not negative. -/
  plus : List Char

/-- Doubles are positional from 0.00001 up to sixteen places before the point, and an exponent has
its sign. -/
def doubleFormat : DoubleFormat := ⟨-4, 16, ['+']⟩

/-- A decimal with the first of its digits at the given place before the point (zero and less:
behind it) in positional notation, with at least one digit on each side of the point. -/
def writePositional (ds : List Char) (place : Int) : List Char :=
  if place ≤ 0 then '0' :: '.' :: List.replicate (-place).toNat '0' ++ ds
  else
    let whole := ds.take place.toNat
    let zeros := List.replicate (place.toNat - ds.length) '0'
    let part := ds.drop place.toNat
    whole ++ zeros ++ '.' :: (if part.isEmpty then ['0'] else part)

/-- A decimal in scientific notation, with one digit before the point. -/
def writeScientific (format : DoubleFormat) (ds : List Char) (place : Int) : List Char :=
  let power := place - 1
  ds.take 1 ++ (if ds.length ≤ 1 then [] else '.' :: ds.drop 1) ++ 'e' ::
    (if power < 0 then '-' :: Text.Decimal.digits (-power).toNat
     else format.plus ++ Text.Decimal.digits power.toNat)

/-- A double with the fewest digits that read back as it. -/
def writeDouble (d : Double) : List Char :=
  let sign := if d.negative then ['-'] else []
  if d.magnitude.mantissa = 0 then sign ++ ['0', '.', '0']
  else
    let shortest := d.magnitude.shortest
    let ds := Text.Decimal.digits shortest.digits
    let place := Int.ofNat ds.length + shortest.exponent
    sign ++
      if doubleFormat.leastPlace ≤ place ∧ place ≤ doubleFormat.greatestPlace then
        writePositional ds place
      else writeScientific doubleFormat ds place

/-- A number. -/
def writeNumber : Number → List Char
  | .int z => writeInt z
  | .double d => writeDouble d

/-- Where a container stands: nothing but its items is written (`none`), or its items stand on
lines of their own inside so many containers. -/
abbrev Layout := Option Nat

namespace Layout

/-- What separates two items, and the last from the closing bracket. -/
def lineBreak : Layout → List Char
  | none => []
  | some level => '\n' :: List.replicate (2 * level) ' '

/-- The layout inside a container. -/
def inner : Layout → Layout
  | none => none
  | some level => some (level + 1)

/-- What stands between a key and its value. -/
def colon : Layout → List Char
  | none => [':']
  | some _ => [':', ' ']

end Layout

mutual

/-- A value. -/
def write (l : Layout) : Value → List Char
  | .null => ['n', 'u', 'l', 'l']
  | .bool true => ['t', 'r', 'u', 'e']
  | .bool false => ['f', 'a', 'l', 's', 'e']
  | .number n => writeNumber n
  | .string s => quote s
  | .array [] => ['[', ']']
  | .array (v :: vs) =>
    '[' :: l.inner.lineBreak ++ write l.inner v ++ writeItems l.inner vs ++ l.lineBreak ++ [']']
  | .object [] => ['\x7b', '\x7d']
  | .object ((k, v) :: ms) =>
    '\x7b' :: l.inner.lineBreak ++ quote k ++ l.colon ++ write l.inner v ++ writeMembers l.inner ms
      ++ l.lineBreak ++ ['\x7d']

/-- The items after the first. -/
def writeItems (l : Layout) : List Value → List Char
  | [] => []
  | v :: vs => ',' :: l.lineBreak ++ write l v ++ writeItems l vs

/-- The members after the first. -/
def writeMembers (l : Layout) : List (String × Value) → List Char
  | [] => []
  | (k, v) :: ms => ',' :: l.lineBreak ++ quote k ++ l.colon ++ write l v ++ writeMembers l ms

end

/-- A value on one line, without any space. -/
def Value.compact (v : Value) : String := String.ofList (write none v)

/-- A value on indented lines. -/
def Value.pretty (v : Value) : String := String.ofList (write (some 0) v)

end Cimi.Json
