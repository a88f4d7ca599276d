import Cimi.Calendar
import Cimi.Text.Hex
import Cimi.Toml.Value

/-!
# Numbers, dates and times of TOML

What begins with a digit or a sign is a date, a time of day, a number with a fraction or an
exponent, or a whole number; the first of these that it can be, it is.
-/

namespace Cimi.Toml

open Text

/-- Digits with single underscores between them, after a digit. -/
def moreDigits (isDigit : Char → Bool) : List Char → Option (List Char × List Char)
  | [] => some ([], [])
  | ['_'] => none
  | '_' :: c :: cs =>
    if isDigit c then (moreDigits isDigit cs).map fun (ds, rest) => (c :: ds, rest) else none
  | c :: cs =>
    if isDigit c then (moreDigits isDigit cs).map fun (ds, rest) => (c :: ds, rest)
    else some ([], c :: cs)

/-- At least one digit, with single underscores between digits. -/
def digits (isDigit : Char → Bool) : List Char → Option (List Char × List Char)
  | [] => none
  | c :: cs =>
    if isDigit c then (moreDigits isDigit cs).map fun (ds, rest) => (c :: ds, rest) else none

/-- Whether a minus sign begins a text, and what follows a sign. -/
def sign : List Char → Bool × List Char
  | '-' :: cs => (true, cs)
  | '+' :: cs => (false, cs)
  | cs => (false, cs)

/-- Decimal digits of a whole number, which has no zero before other digits. -/
def wholeDigits : List Char → Option (List Char × List Char)
  | '0' :: cs => some (['0'], cs)
  | cs => digits Char.isDigit cs

/-- The least and the greatest whole number. -/
def inRange (n : Int) : Bool := -0x8000000000000000 ≤ n && n < 0x8000000000000000

/-- A whole number in a notation of its own, after its mark. -/
def radixInteger (radix : Nat) (cs : List Char) : Option (Value × List Char) := do
  let isDigit (c : Char) : Bool := (Hex.value? c).any (· < radix)
  let (ds, rest) ← digits isDigit cs
  let n := (ds.filterMap Hex.value?).foldl (fun n d => n * radix + d) 0
  if inRange n then some (.integer n, rest) else none

/-- A whole number. -/
def integer : List Char → Option (Value × List Char)
  | '0' :: 'x' :: cs => radixInteger 16 cs
  | '0' :: 'o' :: cs => radixInteger 8 cs
  | '0' :: 'b' :: cs => radixInteger 2 cs
  | cs => do
    let (negative, cs) := sign cs
    let (ds, rest) ← wholeDigits cs
    let n : Int := if negative then -Int.ofNat (Decimal.value ds) else Int.ofNat (Decimal.value ds)
    if inRange n then some (.integer n, rest) else none

/-- Whether `digits · 10^exponent` is beyond the greatest binary64 number when rounded. -/
def overflows (digits : Nat) (exponent : Int) : Bool :=
  let size := Int.ofNat (Decimal.digits digits).length + exponent
  if digits = 0 || size < 300 then false
  else if size > 320 then true
  else
    let bound := Nat.pow 2 1024 - Nat.pow 2 970
    match exponent with
    | .ofNat e => bound ≤ digits * Nat.pow 10 e
    | .negSucc e => bound * Nat.pow 10 (e + 1) ≤ digits

/-- The digits after a point, if there is one. -/
def fraction : List Char → Option (List Char × List Char)
  | '.' :: cs => digits Char.isDigit cs
  | cs => some ([], cs)

/-- The exponent, if there is one. -/
def exponent : List Char → Option (Option Int × List Char)
  | c :: cs =>
    if c = 'e' || c = 'E' then do
      let (negative, cs) := sign cs
      let (ds, rest) ← digits Char.isDigit cs
      let n := Int.ofNat (Decimal.value ds)
      return (some (if negative then -n else n), rest)
    else some (none, c :: cs)
  | [] => some (none, [])

/-- A number with a fraction or an exponent. -/
def real (cs : List Char) : Option (Value × List Char) := do
  let (negative, cs) := sign cs
  let (whole, cs) ← wholeDigits cs
  let (part, cs) ← fraction cs
  let (e, rest) ← exponent cs
  if part.isEmpty && e.isNone then none
  if !negative && overflows (Decimal.value (whole ++ part)) (e.getD 0 - part.length) then none
  some (.real, rest)

/-- An infinity, or what is no number. -/
def special (cs : List Char) : Option (Value × List Char) :=
  match (sign cs).2 with
  | 'i' :: 'n' :: 'f' :: rest => some (.real, rest)
  | 'n' :: 'a' :: 'n' :: rest => some (.real, rest)
  | _ => none

/-- The number that exactly so many digits name. -/
def fixed (count : Nat) (cs : List Char) : Option (Nat × List Char) :=
  let ds := cs.take count
  if ds.length = count && ds.all Char.isDigit then some (Decimal.value ds, cs.drop count) else none

/-- What follows a character. -/
def mark (c : Char) : List Char → Option (List Char)
  | d :: cs => if d = c then some cs else none
  | [] => none

/-- A date. -/
def date (cs : List Char) : Option (List Char) := do
  let (year, cs) ← fixed 4 cs
  let (month, cs) ← fixed 2 (← mark '-' cs)
  let (day, cs) ← fixed 2 (← mark '-' cs)
  let _ ← Date.of? year month day
  return cs

/-- An hour and a minute. -/
def hourMinute (cs : List Char) : Option (List Char) := do
  let (hour, cs) ← fixed 2 cs
  let (minute, cs) ← fixed 2 (← mark ':' cs)
  if hour ≤ 23 ∧ minute ≤ 59 then some cs else none

/-- A time of day, with any fraction of a second; a minute can have a leap second. -/
def timeOfDay (cs : List Char) : Option (List Char) := do
  let cs ← hourMinute cs
  let (second, cs) ← fixed 2 (← mark ':' cs)
  if second > 60 then none
  match cs with
  | '.' :: c :: rest => if c.isDigit then some (rest.dropWhile Char.isDigit) else some cs
  | _ => some cs

/-- What follows an offset, if there is one. -/
def skipOffset : List Char → List Char
  | [] => []
  | c :: cs =>
    if c = 'Z' || c = 'z' then cs
    else if c = '+' || c = '-' then (hourMinute cs).getD (c :: cs)
    else c :: cs

/-- What follows a time of day after a date, if there is one. -/
def skipTime : List Char → List Char
  | [] => []
  | c :: cs =>
    if c = 'T' || c = 't' || c = ' ' then ((timeOfDay cs).map skipOffset).getD (c :: cs)
    else c :: cs

/-- A date, a time of day, or both. -/
def moment (cs : List Char) : Option (Value × List Char) :=
  (((date cs).map skipTime).or (timeOfDay cs)).map fun rest => (.moment, rest)

/-- A number, a date or a time. -/
def number (cs : List Char) : Option (Value × List Char) :=
  (((moment cs).or (real cs)).or (special cs)).or (integer cs)

end Cimi.Toml
