import Cimi.Text.Extending
import Cimi.Text.Unprintable

/-!
# Quoted text in messages

A message shows a text that it complains about in double quotes.  Backslashes, quotes and the usual
control characters are escaped by name, and a character that would not be seen on its own is shown
by its number in hexadecimal.
-/

namespace Cimi.Text.Quoted

/-- A character inside a quoted text. -/
def escapeChar (c : Char) : List Char :=
  match c with
  | '\x00' => ['\\', '0']
  | '\t' => ['\\', 't']
  | '\r' => ['\\', 'r']
  | '\n' => ['\\', 'n']
  | '"' => ['\\', '"']
  | '\\' => ['\\', '\\']
  | c =>
    if isExtending c || !isPrintable c then
      ['\\', 'u', '\x7b'] ++ Nat.toDigits 16 c.toNat ++ ['\x7d']
    else [c]

/-- A text in its quotes. -/
def quote (s : String) : String :=
  String.ofList ('"' :: s.toList.flatMap escapeChar ++ ['"'])

end Cimi.Text.Quoted
