import Cimi.Text.Split
import Cimi.Text.Utf8

/-!
# Addresses of requests

A request names an address: a path with a query, after a scheme and a host or without them, or a
host alone.  What follows `#` is not part of it.  A text that breaks these rules is no address at
all; nothing is repaired.
-/

namespace Cimi.Web

/-- The path and the query of an address; they are as they were sent, with all escapes. -/
structure Address where
  path : String
  query : String
deriving DecidableEq, Repr

namespace Address

/-- Whether a character may stand in a path. -/
def isPathChar (c : Char) : Bool :=
  '!' ≤ c && c ∉ ['#', '<', '>', '?', '\x60', '\x7F']

/-- Whether a character may stand in a query. -/
def isQueryChar (c : Char) : Bool :=
  '!' ≤ c && c ∉ ['"', '#', '<', '>', '\x7F']

/-- Whether a character may stand in a scheme. -/
def isSchemeChar (c : Char) : Bool := c.isAlphanum || c ∈ ['+', '-', '.', '~']

/-- Whether a character may stand in the host. -/
def isHostChar (c : Char) : Bool := c.isAlphanum || c ∈ "!$&'()*+,-.;=_~".toList

/-- The longest address, in bytes. -/
def maxLength : Nat := 65534

/-- The longest scheme. -/
def maxScheme : Nat := 64

/-- The most colons in a host before it is known where the brackets end. -/
def maxColons : Nat := 8

/-- What has been seen of a host. -/
structure HostScan where
  colons : Nat
  opened : Bool
  closed : Bool
  percent : Bool

/-- Reads a character of the host, if it may stand there. -/
def HostScan.step (s : HostScan) (c : Char) : Option HostScan :=
  if isHostChar c then some s
  else match c with
    | ':' => if s.colons < maxColons then some { s with colons := s.colons + 1 } else none
    | '[' => if s.percent || s.opened then none else some { s with opened := true }
    | ']' =>
      if !s.opened || s.closed then none
      else some { s with closed := true, colons := 0, percent := false }
    | '@' => some { s with colons := 0, percent := false }
    | '%' => some { s with percent := true }
    | _ => none

/-- Whether a host may end here. -/
def HostScan.isComplete (s : HostScan) : Bool :=
  s.opened = s.closed && s.colons ≤ 1 && !s.percent

/-- Whether a character ends the host. -/
def endsHost (c : Char) : Bool := c = '/' || c = '?' || c = '#'

/-- The host at the beginning of a text, and the rest. -/
def host (cs : List Char) : Option (List Char × List Char) := do
  let name := cs.takeWhile (!endsHost ·)
  let s ← name.foldlM HostScan.step ⟨0, false, false, false⟩
  guard (s.isComplete && name.getLast? != some '@')
  return (name, cs.drop name.length)

/-- The path and the query of a text that stands after the host. -/
def pathAndQuery (cs : List Char) : Option Address :=
  let path := cs.takeWhile isPathChar
  match cs.dropWhile isPathChar with
  | [] | '#' :: _ => some ⟨String.ofList path, ""⟩
  | '?' :: rest =>
    match rest.dropWhile isQueryChar with
    | [] | '#' :: _ => some ⟨String.ofList path, String.ofList (rest.takeWhile isQueryChar)⟩
    | _ => none
  | _ => none

/-- An address without a path has the path of the root. -/
def orRoot (a : Address) : Address := if a.path.toList.isEmpty then { a with path := "/" } else a

/-- What follows the scheme of a text that has one. -/
def afterScheme? (cs : List Char) : Option (List Char) :=
  match cs.dropWhile isSchemeChar with
  | ':' :: '/' :: '/' :: rest => some rest
  | _ => none

/-- An address that does not begin with a slash. -/
def parseFull (cs : List Char) : Option Address := do
  match afterScheme? cs with
  | some rest =>
    guard ((cs.takeWhile isSchemeChar).length ≤ maxScheme)
    let (name, rest) ← host rest
    guard !name.isEmpty
    return (← pathAndQuery rest).orRoot
  | none =>
    let (_, rest) ← host cs
    guard rest.isEmpty
    return ⟨"", ""⟩

/-- The address that a text spells, if it spells one. -/
def parse (text : String) : Option Address :=
  let cs := text.toList
  if Text.Utf8.size cs > maxLength then none
  else match cs with
    | [] => none
    | ['*'] => some ⟨"*", ""⟩
    | '/' :: _ => pathAndQuery cs
    | _ => parseFull cs

end Address

end Cimi.Web
