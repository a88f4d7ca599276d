import Cimi.Text.Utf8

/-!
# Lines of input

Input comes as bytes.  Each newline ends a line, a carriage return before it belongs to the end, and
the last line needs no end.  A line that is not UTF-8 cannot be read; the lines before it can.
-/

namespace Cimi.Text.Lines

/-- A line without the carriage return at its end. -/
def chomp (line : List UInt8) : List UInt8 :=
  match line.reverse with
  | 0x0D :: rest => rest.reverse
  | _ => line

/-- The lines of the bytes after those of the line that has begun, which stand last one first. -/
def splitFrom : (begun : List UInt8) → List UInt8 → List (List UInt8)
  | [], [] => []
  | begun, [] => [begun.reverse]
  | begun, b :: bytes =>
    if b = 0x0A then chomp begun.reverse :: splitFrom [] bytes else splitFrom (b :: begun) bytes

/-- The lines of a byte sequence, as bytes. -/
def split (bytes : List UInt8) : List (List UInt8) := splitFrom [] bytes

/-- The text of a line. -/
def read (line : List UInt8) : Except Utf8.Fault String := (Utf8.decode line).map String.ofList

/-- The lines of a byte sequence. -/
def ofBytes (bytes : List UInt8) : List (Except Utf8.Fault String) := (split bytes).map read

end Cimi.Text.Lines
