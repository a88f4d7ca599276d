/-!
# Hexadecimal digits

The sixteen digits in upper case (`upper`) and in lower case (`lower`), and the value of a digit in
either case.  A digit's value is the number it was made from (`value?_upper`, `value?_lower`).
-/

namespace Cimi.Text.Hex

/-- The upper-case digit of a number below sixteen. -/
def upper (n : Nat) : Char :=
  if n < 10 then Char.ofNat ('0'.toNat + n) else Char.ofNat ('A'.toNat + (n - 10))

/-- The lower-case digit of a number below sixteen. -/
def lower (n : Nat) : Char :=
  if n < 10 then Char.ofNat ('0'.toNat + n) else Char.ofNat ('a'.toNat + (n - 10))

/-- The value of a digit. -/
def value? (c : Char) : Option Nat :=
  if c.isDigit then some (c.toNat - '0'.toNat)
  else if 'a' ≤ c && c ≤ 'f' then some (c.toNat - 'a'.toNat + 10)
  else if 'A' ≤ c && c ≤ 'F' then some (c.toNat - 'A'.toNat + 10)
  else none

theorem value?_upper {n : Nat} (h : n < 16) : value? (upper n) = some n := by
  revert n; decide

theorem value?_lower {n : Nat} (h : n < 16) : value? (lower n) = some n := by
  revert n; decide

end Cimi.Text.Hex
