import Cimi.Calendar
import Cimi.Text.Decimal

/-!
# Filters

A filter chooses members of a collection.  It joins comparisons of an attribute with a literal by
`and` and `or`.  The canonical text of a filter (`Filter.canonical`) is what a server is asked; it
needs parentheses only around an `or` below an `and`.
-/

namespace Cimi

namespace Filter

/-- How the two sides of a comparison are compared. -/
inductive Op where
  | eq
  | ne
  | lt
  | le
  | gt
  | ge
deriving DecidableEq, Repr

/-- How an operator is written. -/
def Op.symbol : Op → String
  | .eq => "="
  | .ne => "!="
  | .lt => "<"
  | .le => "<="
  | .gt => ">"
  | .ge => ">="

/-- An attribute of a resource, or one of its properties. -/
inductive Attribute where
  | name (n : String)
  | property (key : String)
deriving DecidableEq, Repr

/-- A value that an attribute is compared with.  A date keeps the text it was read from. -/
inductive Literal where
  | int (n : Nat)
  | bool (b : Bool)
  | string (s : String)
  | date (text : String) (instant : Instant)
deriving DecidableEq, Repr

/-- One side of a comparison. -/
inductive Operand where
  | attribute (a : Attribute)
  | literal (l : Literal)
deriving DecidableEq, Repr

/-- A comparison. -/
structure Comparison where
  left : Operand
  op : Op
  right : Operand
deriving DecidableEq, Repr

/-- The attribute of a comparison; the left one if there are two. -/
def Comparison.attribute? (c : Comparison) : Option Attribute :=
  match c.left, c.right with
  | .attribute a, _ => some a
  | .literal _, .attribute a => some a
  | .literal _, .literal _ => none

end Filter

/-- A filter. -/
inductive Filter where
  | comparison (c : Filter.Comparison)
  | and (left right : Filter)
  | or (left right : Filter)
deriving DecidableEq, Repr

namespace Filter

/-- The comparisons from left to right. -/
def comparisons : Filter → List Comparison
  | .comparison c => [c]
  | .and l r => l.comparisons ++ r.comparisons
  | .or l r => l.comparisons ++ r.comparisons

/-- The number of comparisons. -/
def size (f : Filter) : Nat := f.comparisons.length

/-- A character inside single quotes. -/
def quoteChar (c : Char) : List Char := if c = '\'' || c = '\\' then ['\\', c] else [c]

/-- A text in single quotes. -/
def quote (s : String) : List Char := '\'' :: s.toList.flatMap quoteChar ++ ['\'']

/-- An attribute. -/
def Attribute.write : Attribute → List Char
  | .name n => n.toList
  | .property key => "property[".toList ++ quote key ++ [']']

/-- A literal. -/
def Literal.write : Literal → List Char
  | .int n => Text.Decimal.digits n
  | .bool true => "true".toList
  | .bool false => "false".toList
  | .string s => quote s
  | .date text _ => text.toList

/-- A side of a comparison. -/
def Operand.write : Operand → List Char
  | .attribute a => a.write
  | .literal l => l.write

/-- A comparison, without any space. -/
def Comparison.write (c : Comparison) : List Char :=
  c.left.write ++ c.op.symbol.toList ++ c.right.write

/-- Whether a filter is joined by `or`. -/
def isOr : Filter → Bool
  | .or _ _ => true
  | _ => false

/-- A filter as a side of an `and` that is written as `text`. -/
def parenthesized (f : Filter) (text : List Char) : List Char :=
  if f.isOr then '(' :: text ++ [')'] else text

/-- A filter. -/
def write : Filter → List Char
  | .comparison c => c.write
  | .or l r => l.write ++ " or ".toList ++ r.write
  | .and l r => l.parenthesized l.write ++ " and ".toList ++ r.parenthesized r.write

/-- The canonical text of a filter. -/
def canonical (f : Filter) : String := String.ofList f.write

end Filter

end Cimi
