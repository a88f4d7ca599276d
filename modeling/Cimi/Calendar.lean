import Cimi.Text.Decimal

/-!
# Dates and instants

A date is a year, a month and a day of the Gregorian calendar, counted in days from 1970-01-01
(`Date.days`).  An instant is read from a date alone, and is then midnight in UTC, or from a date
with a time and an offset (RFC 3339).  Both ways end in the same count of days, so they are on the
same clock.
-/

namespace Cimi

/-- Why a text is no date. -/
inductive DateError where
  | outOfRange
  | invalid
  | tooShort
  | tooLong
  | expectedDate
deriving DecidableEq, Repr

/-- The words for why a text is no date. -/
def DateError.message : DateError → String
  | .outOfRange => "input is out of range"
  | .invalid => "input contains invalid characters"
  | .tooShort => "premature end of input"
  | .tooLong => "trailing input"
  | .expectedDate => "expected YYYY-MM-DD"

/-- A day of the Gregorian calendar. -/
structure Date where
  year : Nat
  month : Nat
  day : Nat
deriving DecidableEq, Repr

namespace Date

/-- Whether February has a 29th day. -/
def isLeapYear (year : Nat) : Bool := year % 4 = 0 && (year % 100 ≠ 0 || year % 400 = 0)

/-- The number of days in a month. -/
def daysInMonth (year month : Nat) : Nat :=
  match month with
  | 2 => if isLeapYear year then 29 else 28
  | 4 | 6 | 9 | 11 => 30
  | _ => 31

/-- The date with these numbers, if there is one. -/
def of? (year month day : Nat) : Option Date :=
  if 1 ≤ month ∧ month ≤ 12 ∧ 1 ≤ day ∧ day ≤ daysInMonth year month then some ⟨year, month, day⟩
  else none

/-- The number of days in the years before this one, from year zero on. -/
def daysBeforeYear (year : Nat) : Nat :=
  365 * year + (year + 3) / 4 - (year + 99) / 100 + (year + 399) / 400

/-- The number of days in the first so many months. -/
def daysOfMonths (year : Nat) : (months : Nat) → Nat
  | 0 => 0
  | m + 1 => daysOfMonths year m + daysInMonth year (m + 1)

/-- The number of days in the months before this one. -/
def daysBeforeMonth (year month : Nat) : Nat := daysOfMonths year (month - 1)

/-- The number of days since 1970-01-01. -/
def days (d : Date) : Int :=
  Int.ofNat (daysBeforeYear d.year + daysBeforeMonth d.year d.month + (d.day - 1)) -
    Int.ofNat (daysBeforeYear 1970)

end Date

/-- A point in time, with the offset of the clock on which it was read.  A leap second has a
billion nanoseconds or more beyond the second before it. -/
structure Instant where
  seconds : Int
  nanos : Nat
  offset : Int
deriving DecidableEq, Repr

namespace Instant

/-- Midnight in UTC. -/
def ofDate (d : Date) : Instant := ⟨d.days * 86400, 0, 0⟩

/-- A number of at least one digit and at most `width` digits, with what follows it. -/
def number (width : Nat) (cs : List Char) : Except DateError (Nat × List Char) :=
  if cs.isEmpty then .error .tooShort
  else
    let ds := (cs.take width).takeWhile Char.isDigit
    if ds.isEmpty then .error .invalid else .ok (Text.Decimal.value ds, cs.drop ds.length)

/-- What follows a hyphen. -/
def hyphen : List Char → Except DateError (List Char)
  | [] => .error .tooShort
  | c :: cs => if c = '-' then .ok cs else .error .invalid

/-- A number in a range. -/
def ranged (low high n : Nat) : Except DateError Nat :=
  if low ≤ n ∧ n ≤ high then .ok n else .error .outOfRange

/-- A date alone: a year of up to four digits, a month and a day of up to two each. -/
def ofDateText (cs : List Char) : Except DateError Instant := do
  let (year, cs) ← number 4 cs
  let cs ← hyphen cs
  let (month, cs) ← number 2 cs
  let month ← ranged 1 12 month
  let cs ← hyphen cs
  let (day, cs) ← number 2 cs
  let day ← ranged 1 31 day
  if !cs.isEmpty then throw .tooLong
  match Date.of? year month day with
  | some d => return ofDate d
  | none => throw .outOfRange

/-- The number that the digits name; all of them have to be digits. -/
def fixed (cs : List Char) : Except DateError Nat :=
  if cs.all Char.isDigit then .ok (Text.Decimal.value cs) else .error .invalid

/-- Refuses any other character than the one expected. -/
def mark (expected c : Char) : Except DateError Unit :=
  if c = expected then .ok () else .error .invalid

/-- The nanoseconds of a fraction, after its point: digits beyond the ninth are dropped. -/
def nanoseconds (cs : List Char) : Except DateError (Nat × List Char) :=
  if cs.isEmpty then .error .tooShort
  else
    let ds := cs.takeWhile Char.isDigit
    if ds.isEmpty then .error .invalid
    else
      let kept := ds.take 9
      .ok (Text.Decimal.value kept * Nat.pow 10 (9 - kept.length), cs.drop ds.length)

/-- The minutes of an offset, the last thing in a text. -/
def offsetMinutes : List Char → Except DateError Nat
  | a :: b :: rest =>
    if a.isDigit && b.isDigit then
      if '6' ≤ a then .error .outOfRange
      else if rest.isEmpty then .ok (Text.Decimal.value [a, b])
      else .error .tooLong
    else .error .invalid
  | _ => .error .tooShort

/-- The hours and minutes of an offset, in seconds. -/
def offsetSeconds : List Char → Except DateError Nat
  | a :: b :: rest =>
    if a.isDigit && b.isDigit then
      match rest with
      | [] => .error .tooShort
      | c :: rest =>
        if c = ':' then do
          let minutes ← offsetMinutes rest
          let seconds := Text.Decimal.value [a, b] * 3600 + minutes * 60
          if seconds < 86400 then .ok seconds else .error .outOfRange
        else .error .invalid
    else .error .invalid
  | _ => .error .tooShort

/-- The offset at the end of a text, in seconds. -/
def offsetOf : List Char → Except DateError Int
  | [] => .error .tooShort
  | c :: rest =>
    if c = 'Z' || c = 'z' then if rest.isEmpty then .ok 0 else .error .tooLong
    else if c = '+' then (offsetSeconds rest).map Int.ofNat
    else if c = '-' then (offsetSeconds rest).map fun s => -Int.ofNat s
    else .error .invalid

/-- A date with a time and an offset, as in `2012-01-02T13:14:25.6+02:30`.  The first nineteen
characters stand at fixed places.  The sixtieth second is a leap second. -/
def ofTimestamp (cs : List Char) : Except DateError Instant :=
  match cs with
  | y1 :: y2 :: y3 :: y4 :: h1 :: m1 :: m2 :: h2 :: d1 :: d2 :: t :: hh1 :: hh2 :: c1 :: mm1 :: mm2
      :: c2 :: ss1 :: ss2 :: rest => do
    let year ← fixed [y1, y2, y3, y4]
    mark '-' h1
    let month ← fixed [m1, m2]
    mark '-' h2
    let day ← fixed [d1, d2]
    let date ← (Date.of? year month day).elim (.error .outOfRange) .ok
    if t ≠ 'T' && t ≠ 't' && t ≠ ' ' then throw .invalid
    let hour ← fixed [hh1, hh2]
    mark ':' c1
    let minute ← fixed [mm1, mm2]
    mark ':' c2
    let second ← fixed [ss1, ss2]
    let (nanos, rest) ← match rest with
      | '.' :: rest => nanoseconds rest
      | rest => .ok (0, rest)
    let _ ← ranged 0 23 hour
    let _ ← ranged 0 59 minute
    let _ ← ranged 0 60 second
    let offset ← offsetOf rest
    let (second, nanos) := if second = 60 then (59, 1000000000 + nanos) else (second, nanos)
    return ⟨date.days * 86400 + Int.ofNat (hour * 3600 + minute * 60 + second) - offset, nanos,
      offset⟩
  | _ => .error .tooShort

/-- The instant of a date, which has a time if and only if there is a `T` in it. -/
def ofText (cs : List Char) : Except DateError Instant :=
  if 'T' ∈ cs then ofTimestamp cs else ofDateText cs

end Instant

end Cimi
