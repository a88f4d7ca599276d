import Cimi.Text.Split

/-!
# Painted text

Terminals show text in colours and in bold or underlined letters when it stands between escape
sequences.  A text that ends the painting by itself is painted again after it.
-/

namespace Cimi.Terminal

/-- How a text is painted. -/
inductive Paint where
  | bold
  | boldUnderlined
  | dimmed
  | red
  | green
  | yellow
  | blue
  | blueUnderlined
  | cyan
deriving DecidableEq, Repr

/-- The codes of a paint: letters first, then the colour. -/
def Paint.codes : Paint → String
  | .bold => "1"
  | .boldUnderlined => "1;4"
  | .dimmed => "2"
  | .red => "31"
  | .green => "32"
  | .yellow => "33"
  | .blue => "34"
  | .blueUnderlined => "4;34"
  | .cyan => "36"

/-- The sequence that begins to paint. -/
def Paint.begin (p : Paint) : List Char := "\x1B[".toList ++ p.codes.toList ++ ['m']

/-- The sequence that ends all painting. -/
def reset : List Char := "\x1B[0m".toList

/-- A text with the sequence `begin` after each of its own resets. -/
def repaint (start : List Char) : List Char → List Char
  | '\x1B' :: '[' :: '0' :: 'm' :: cs => reset ++ start ++ repaint start cs
  | c :: cs => c :: repaint start cs
  | [] => []

/-- A text with spaces after it up to a width in characters. -/
def pad (width : Nat) (cs : List Char) : List Char := cs ++ List.replicate (width - cs.length) ' '

/-- A text padded to a width, and painted if the terminal has colours. -/
def paintPadded (color : Bool) (width : Nat) (p : Paint) (text : String) : List Char :=
  if color then p.begin ++ pad width (repaint p.begin text.toList) ++ reset
  else pad width text.toList

/-- A text, painted if the terminal has colours. -/
def paint (color : Bool) (p : Paint) (text : String) : List Char := paintPadded color 0 p text

end Cimi.Terminal
