import Cimi.Calendar
import Mathlib.Data.List.Basic
import Mathlib.Data.List.TakeWhile
import Mathlib.Tactic.Common

/-!
# Days and the texts that name them

The days are counted without a gap, over the ends of months and years (`Date.days_next`).  A day is
written in digits, and a time and an offset may follow it (`DayText`, `ClockText`, `OffsetText`).
The two readers of dates go over the same digits in different ways, the one field by field
(`Instant.ofDateText_write`) and the other at fixed places (`Instant.ofTimestamp_write`), and both
take exactly the days that there are.
-/

namespace Cimi

namespace Date

variable {year month day : Nat} {d : Date}

theorem daysInMonth_le (year month : Nat) : daysInMonth year month ≤ 31 := by
  unfold daysInMonth
  split
  · split <;> omega
  all_goals omega

theorem ranges_of_of? (h : of? year month day = some d) :
    (1 ≤ month ∧ month ≤ 12) ∧ 1 ≤ day ∧ day ≤ 31 := by
  obtain ⟨⟨hone, htwelve, hfirst, hlast⟩, -⟩ := Option.ite_none_right_eq_some.1 h
  exact ⟨⟨hone, htwelve⟩, hfirst, Nat.le_trans hlast (daysInMonth_le year month)⟩

theorem isLeapYear_iff :
    isLeapYear year = true ↔ year % 4 = 0 ∧ (year % 100 ≠ 0 ∨ year % 400 = 0) := by
  simp [isLeapYear]

theorem daysOfMonths_twelve (year : Nat) :
    daysOfMonths year 12 = if isLeapYear year then 366 else 365 := by
  simp only [daysOfMonths, daysInMonth]
  split <;> rfl

/-- The leap years are counted in the quotients. -/
theorem daysBeforeYear_succ (year : Nat) :
    daysBeforeYear (year + 1) = daysBeforeYear year + daysOfMonths year 12 := by
  have hfourth : (year + 1 + 3) / 4 = (year + 3) / 4 + if year % 4 = 0 then 1 else 0 := by
    split <;> omega
  have hcentury : (year + 1 + 99) / 100 = (year + 99) / 100 + if year % 100 = 0 then 1 else 0 := by
    split <;> omega
  have hfourCenturies :
      (year + 1 + 399) / 400 = (year + 399) / 400 + if year % 400 = 0 then 1 else 0 := by
    split <;> omega
  have hle : (year + 99) / 100 ≤ 365 * year + (year + 3) / 4 := by omega
  have hleap : (if isLeapYear year then 366 else 365) + (if year % 100 = 0 then 1 else 0) =
      365 + (if year % 4 = 0 then 1 else 0) + if year % 400 = 0 then 1 else 0 := by
    simp only [isLeapYear_iff]
    split_ifs <;> omega
  rw [daysOfMonths_twelve, daysBeforeYear, daysBeforeYear, hfourth, hcentury, hfourCenturies]
  omega

/-- The day after a date. -/
def next (d : Date) : Date :=
  if d.day < daysInMonth d.year d.month then { d with day := d.day + 1 }
  else if d.month < 12 then ⟨d.year, d.month + 1, 1⟩
  else ⟨d.year + 1, 1, 1⟩

theorem days_next (h : of? year month day = some d) : d.next.days = d.days + 1 := by
  obtain ⟨⟨hone, htwelve, hfirst, hlast⟩, hd⟩ := Option.ite_none_right_eq_some.1 h
  obtain ⟨months, rfl⟩ := Nat.exists_eq_add_of_le' hone
  cases hd
  by_cases hday : day < daysInMonth year (months + 1)
  · rw [next, if_pos hday]
    simp only [days, Int.ofNat_eq_natCast]
    omega
  · have hwhole : day = daysInMonth year (months + 1) := by omega
    by_cases hmonth : months + 1 < 12
    · rw [next, if_neg hday, if_pos hmonth]
      simp only [days, daysBeforeMonth, Nat.add_sub_cancel, daysOfMonths, Int.ofNat_eq_natCast]
      omega
    · obtain rfl : months = 11 := by omega
      rw [next, if_neg hday, if_neg hmonth]
      have hyear :
          daysBeforeYear (year + 1) = daysBeforeYear year + (daysOfMonths year 11 + day) := by
        rw [daysBeforeYear_succ, hwhole, daysOfMonths]
      have hstart : daysBeforeMonth (year + 1) 1 = 0 := rfl
      have hlast : daysBeforeMonth year (11 + 1) = daysOfMonths year 11 := rfl
      simp only [days, hstart, hlast, hyear, Int.ofNat_eq_natCast]
      omega

end Date

/-! ## How dates are written -/

/-- So many digits. -/
structure Digits (width : Nat) where
  chars : List Char
  length_chars : chars.length = width
  isDigit : ∀ c ∈ chars, c.isDigit = true

def Digits.value {width : Nat} (ds : Digits width) : Nat := Text.Decimal.value ds.chars

structure DayText where
  year : Digits 4
  month : Digits 2
  day : Digits 2

/-- The text of a day, as in `2012-01-02`. -/
def DayText.write (d : DayText) : List Char :=
  d.year.chars ++ '-' :: (d.month.chars ++ '-' :: d.day.chars)

/-- The day that the text names, if there is one. -/
def DayText.date? (d : DayText) : Option Date := Date.of? d.year.value d.month.value d.day.value

structure HourText where
  hour : Digits 2
  minute : Digits 2
  hour_lt : hour.value < 24
  minute_lt : minute.value < 60

/-- The text of an hour and a minute, as in `13:14`. -/
def HourText.write (h : HourText) : List Char := h.hour.chars ++ ':' :: h.minute.chars

def HourText.seconds (h : HourText) : Nat := h.hour.value * 3600 + h.minute.value * 60

structure ClockText extends HourText where
  second : Digits 2
  second_lt : second.value < 60

/-- The text of a time, as in `13:14:25`. -/
def ClockText.write (c : ClockText) : List Char := c.toHourText.write ++ ':' :: c.second.chars

/-- The seconds since midnight. -/
def ClockText.seconds (c : ClockText) : Nat := c.toHourText.seconds + c.second.value

inductive OffsetText where
  | zero
  | ahead (h : HourText)
  | behind (h : HourText)

/-- The text of an offset, as in `Z` or `+02:30`. -/
def OffsetText.write : OffsetText → List Char
  | .zero => ['Z']
  | .ahead h => '+' :: h.write
  | .behind h => '-' :: h.write

/-- The seconds by which a clock is ahead. -/
def OffsetText.seconds : OffsetText → Int
  | .zero => 0
  | .ahead h => h.seconds
  | .behind h => -h.seconds

/-! ## How dates are read -/

namespace Instant

variable {width : Nat}

/-- A field that begins with all its digits is read as their number. -/
theorem number_chars (hwidth : 0 < width) (ds : Digits width) (rest : List Char) :
    number width (ds.chars ++ rest) = .ok (ds.value, rest) := by
  have hne : ds.chars ≠ [] := List.length_pos_iff.1 (by rwa [ds.length_chars])
  have htake : (ds.chars ++ rest).take width = ds.chars := List.take_left' ds.length_chars
  have hall : ds.chars.takeWhile Char.isDigit = ds.chars := List.takeWhile_eq_self_iff.2 ds.isDigit
  rw [number]
  simp [htake, hall, hne, Digits.value]

theorem fixed_chars (ds : Digits width) : fixed ds.chars = .ok ds.value :=
  if_pos (List.all_eq_true.2 ds.isDigit)

theorem exists_two (ds : Digits 2) : ∃ a b, ds.chars = [a, b] ∧
    (a.isDigit = true ∧ b.isDigit = true) ∧ Text.Decimal.value [a, b] = ds.value := by
  obtain ⟨a, b, h⟩ := List.length_eq_two.1 ds.length_chars
  exact ⟨a, b, h, ⟨ds.isDigit a (by simp [h]), ds.isDigit b (by simp [h])⟩, by rw [Digits.value, h]⟩

theorem exists_fixed_two (ds : Digits 2) :
    ∃ a b, ds.chars = [a, b] ∧ fixed [a, b] = .ok ds.value := by
  obtain ⟨a, b, h, -⟩ := exists_two ds
  exact ⟨a, b, h, h ▸ fixed_chars ds⟩

theorem exists_fixed_four (ds : Digits 4) :
    ∃ a b c d, ds.chars = [a, b, c, d] ∧ fixed [a, b, c, d] = .ok ds.value := by
  obtain ⟨a, rest, h⟩ := List.exists_cons_of_length_eq_add_one ds.length_chars
  have hrest : rest.length = 3 := by simpa [h] using ds.length_chars
  obtain ⟨b, c, d, rfl⟩ := List.length_eq_three.1 hrest
  exact ⟨a, b, c, d, h, h ▸ fixed_chars ds⟩

theorem ranged_ok {low high n : Nat} (h : low ≤ n ∧ n ≤ high) : ranged low high n = .ok n :=
  if_pos h

theorem ranged_cases (low high n : Nat) :
    ranged low high n = .ok n ∨ ranged low high n = .error .outOfRange :=
  ite_eq_or_eq ..

theorem offsetMinutes_chars (ds : Digits 2) (hlt : ds.value < 60) :
    offsetMinutes ds.chars = .ok ds.value := by
  obtain ⟨a, b, h, ⟨ha, hb⟩, hvalue⟩ := exists_two ds
  -- A minute is refused for its first digit alone.
  have htens : ¬ '6' ≤ a := fun hle => by
    have hsix : 54 ≤ a.toNat := hle
    have hsum : Text.Decimal.value [a, b] = 10 * (a.toNat - 48) + (b.toNat - 48) := by
      simp [Text.Decimal.value, Nat.ofDigitChars]
    omega
  rw [h, ← hvalue]
  simp [offsetMinutes, ha, hb, htens]

theorem offsetSeconds_write (h : HourText) : offsetSeconds h.write = .ok h.seconds := by
  obtain ⟨a, b, hhour, ⟨ha, hb⟩, hvalue⟩ := exists_two h.hour
  have hday : h.hour.value * 3600 + h.minute.value * 60 < 86400 := by
    have := h.hour_lt
    have := h.minute_lt
    omega
  simp only [HourText.write, hhour, List.cons_append, List.nil_append, offsetSeconds, ha, hb,
    Bool.and_self, if_true, offsetMinutes_chars h.minute h.minute_lt, bind, Except.bind, hvalue,
    HourText.seconds, hday]

theorem ofDateText_write (d : DayText) :
    ofDateText d.write = d.date?.elim (.error .outOfRange) fun date => .ok (ofDate date) := by
  have hyear := number_chars (by decide) d.year
  have hmonth := number_chars (by decide) d.month
  have hday := number_chars (by decide) d.day []
  rw [List.append_nil] at hday
  simp only [ofDateText, DayText.write, bind, Except.bind, hyear, hmonth, hday, hyphen, if_true]
  rcases hdate : d.date? with _ | date
  -- The ranges of the fields refuse only what no date has.
  · have hof : Date.of? d.year.value d.month.value d.day.value = none := hdate
    rcases ranged_cases 1 12 d.month.value with hmonth | hmonth <;>
      rcases ranged_cases 1 31 d.day.value with hday | hday <;> rw [hmonth]
    · simp only [hday, hof]
      rfl
    · rw [hday]
      rfl
    · rfl
    · rfl
  · have hof : Date.of? d.year.value d.month.value d.day.value = some date := hdate
    obtain ⟨hmonths, hdays⟩ := Date.ranges_of_of? hof
    simp only [ranged_ok hmonths, ranged_ok hdays, hof]
    rfl

theorem offsetOf_write (o : OffsetText) : offsetOf o.write = .ok o.seconds := by
  cases o with
  | zero => rfl
  | ahead h =>
    rw [OffsetText.write, offsetOf, offsetSeconds_write]
    rfl
  | behind h =>
    rw [OffsetText.write, offsetOf, offsetSeconds_write]
    rfl

theorem ofTimestamp_write (d : DayText) (c : ClockText) (o : OffsetText) :
    ofTimestamp (d.write ++ 'T' :: (c.write ++ o.write)) =
      d.date?.elim (.error .outOfRange) fun date =>
        .ok ⟨date.days * 86400 + c.seconds - o.seconds, 0, o.seconds⟩ := by
  obtain ⟨y1, y2, y3, y4, hy, hyear⟩ := exists_fixed_four d.year
  obtain ⟨m1, m2, hm, hmonth⟩ := exists_fixed_two d.month
  obtain ⟨d1, d2, hd, hday⟩ := exists_fixed_two d.day
  obtain ⟨h1, h2, hh, hhour⟩ := exists_fixed_two c.hour
  obtain ⟨n1, n2, hn, hminute⟩ := exists_fixed_two c.minute
  obtain ⟨s1, s2, hs, hsecond⟩ := exists_fixed_two c.second
  -- There is no fraction, so the offset is what follows the seconds.
  have hsign : ∀ rest, o.write ≠ '.' :: rest := by
    cases o <;> simp [OffsetText.write]
  simp only [DayText.write, ClockText.write, HourText.write, hy, hm, hd, hh, hn, hs,
    List.cons_append, List.nil_append]
  simp only [ofTimestamp, bind, Except.bind, hyear, hmonth, hday, hhour, hminute, hsecond, mark,
    if_true]
  rw [← DayText.date?]
  have hhours := ranged_ok ⟨Nat.zero_le _, Nat.le_of_lt_succ c.hour_lt⟩
  have hminutes := ranged_ok ⟨Nat.zero_le _, Nat.le_of_lt_succ c.minute_lt⟩
  have hseconds := ranged_ok ⟨Nat.zero_le _, Nat.le_of_lt c.second_lt⟩
  rcases hdate : d.date? with _ | date
  · simp
  · simp [hhours, hminutes, hseconds, offsetOf_write, Nat.ne_of_lt c.second_lt, pure, Except.pure,
      ClockText.seconds, HourText.seconds]

end Instant

end Cimi
