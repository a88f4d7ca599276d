/-!
# Marked-up pages

A page is a list of pieces.  Markup stands as it is.  Text and the targets of links come from
outside, and the characters that mean something in markup are escaped in them, so no such character
of theirs reaches the page (`not_mem_escape`).
-/

namespace Cimi.Web

/-- A piece of a page. -/
inductive Piece where
  | markup (source : String)
  | text (content : String)
  /-- Where a link, a form or a field leads. -/
  | target (url : String)
deriving DecidableEq, Repr

/-- A page, or a part of one. -/
abbrev Markup : Type := List Piece

/-- A character of a text as it is written in a page. -/
def escapeChar : Char → List Char
  | '<' => "&lt;".toList
  | '>' => "&gt;".toList
  | '&' => "&amp;".toList
  | '"' => "&quot;".toList
  | '\'' => "&#x27;".toList
  | c => [c]

/-- A text as it is written in a page. -/
def escape (cs : List Char) : List Char := cs.flatMap escapeChar

/-- A piece as it is written. -/
def Piece.write : Piece → List Char
  | .markup source => source.toList
  | .text content => escape content.toList
  | .target url => escape url.toList

namespace Markup

/-- A page as it is written. -/
def write (m : Markup) : List Char := m.flatMap Piece.write

/-- The text of a page. -/
def render (m : Markup) : String := String.ofList m.write

/-- The targets in a page, in their order. -/
def targets (m : Markup) : List String :=
  m.filterMap fun
    | .target url => some url
    | _ => none

end Markup

/-- Whether a character opens or closes a tag or the value of an attribute. -/
def isDelimiter (c : Char) : Bool := c = '<' || c = '>' || c = '"' || c = '\''

theorem all_escapeChar (c : Char) : (escapeChar c).all (!isDelimiter ·) = true := by
  unfold escapeChar
  split
  case h_6 => simp_all [isDelimiter]
  all_goals rfl

theorem not_mem_escape {cs : List Char} {d : Char} (h : d ∈ escape cs) : isDelimiter d = false := by
  obtain ⟨c, _, hd⟩ := List.mem_flatMap.1 h
  simpa using List.all_eq_true.1 (all_escapeChar c) d hd

end Cimi.Web
