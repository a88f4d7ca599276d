import Cimi.Proofs.Calendar
import Cimi.Proofs.Filter.Literals

/-!
# Dates with and without a time

A day is one token, with a time behind it or without (`isDateLexeme_write`).  So it is read with a
time exactly if it is read alone, and the time counts from the midnight that the day alone is
(`parseDate_time_iff`).
-/

namespace Cimi.Filter

theorem isDigit_or_hyphen {d : DayText} {c : Char} (h : c ∈ d.write) :
    c.isDigit = true ∨ c = '-' := by
  simp only [DayText.write, List.mem_append, List.mem_cons] at h
  rcases h with h | rfl | h | rfl | h
  · exact .inl (d.year.isDigit c h)
  · exact .inr rfl
  · exact .inl (d.month.isDigit c h)
  · exact .inr rfl
  · exact .inl (d.day.isDigit c h)

theorem isDateChar_hour {h : HourText} : ∀ c ∈ h.write, isDateChar c = true := by
  simp only [HourText.write, List.mem_append, List.mem_cons]
  rintro c (hc | rfl | hc)
  · exact isDateChar_of_isDigit (h.hour.isDigit c hc)
  · rfl
  · exact isDateChar_of_isDigit (h.minute.isDigit c hc)

theorem isDateChar_clock {k : ClockText} : ∀ c ∈ k.write, isDateChar c = true := by
  simp only [ClockText.write, List.mem_append, List.mem_cons]
  rintro c (hc | rfl | hc)
  · exact isDateChar_hour c hc
  · rfl
  · exact isDateChar_of_isDigit (k.second.isDigit c hc)

theorem isDateChar_offset {o : OffsetText} : ∀ c ∈ o.write, isDateChar c = true := by
  cases o with
  | zero => simp [OffsetText.write, isDateChar]
  | ahead h => exact List.forall_mem_cons.2 ⟨rfl, isDateChar_hour⟩
  | behind h => exact List.forall_mem_cons.2 ⟨rfl, isDateChar_hour⟩

/-- A day with date characters behind it has the form of a date. -/
theorem isDateLexeme_write (d : DayText) {rest : List Char}
    (hrest : ∀ c ∈ rest, isDateChar c = true) : isDateLexeme (d.write ++ rest) = true := by
  obtain ⟨a, year, hyear⟩ := List.exists_cons_of_length_eq_add_one d.year.length_chars
  have ha : a.isDigit = true := d.year.isDigit a (by simp [hyear])
  have hall : ∀ c ∈ d.write ++ rest, isDateChar c = true := fun c hc => by
    rcases List.mem_append.1 hc with hc | hc
    · rcases isDigit_or_hyphen hc with hc | rfl
      · exact isDateChar_of_isDigit hc
      · rfl
    · exact hrest c hc
  obtain ⟨tail, htail⟩ : ∃ tail, d.write ++ rest = a :: tail :=
    ⟨_, by rw [DayText.write, hyear]; rfl⟩
  have hnumeral : isNumeral (d.write ++ rest) = true := by
    rw [htail] at hall ⊢
    exact Bool.and_eq_true_iff.2 ⟨ha, List.all_eq_true.2 (List.forall_mem_cons.1 hall).2⟩
  have hdigits : (d.write ++ rest).all Char.isDigit = false :=
    List.all_eq_false.2 ⟨'-', by simp [DayText.write], by decide⟩
  simp [isDateLexeme, hnumeral, hdigits]

/-- A text with the form of a date is read for its instant. -/
theorem parseDate_of_isDateLexeme {cs : List Char} (h : isDateLexeme cs = true) :
    parseDate (String.ofList cs) = instantOfText (String.ofList cs) := by
  obtain ⟨hnumeral, hdigits⟩ := Bool.and_eq_true_iff.1 h
  obtain ⟨ls, hlex, htokens⟩ := cuts_nil.numeral hnumeral (fun _ h => by cases h) 0
  obtain ⟨t, rfl, ht⟩ := List.map_eq_singleton_iff.1 htokens
  rw [List.append_nil] at hlex
  have hdate : t.token = .date (String.ofList cs) := by
    rw [ht, numeral, if_neg (by simpa using hdigits)]
  rw [parseDate, single, lex, String.toList_ofList, hlex]
  simp only [bind, Except.bind, hdate]
  rcases instantOfText (String.ofList cs) with e | i <;> rfl

theorem parseDate_ok_iff_ofText {cs : List Char} {i : Instant} (h : isDateLexeme cs = true) :
    parseDate (String.ofList cs) = .ok i ↔ Instant.ofText cs = .ok i := by
  rw [parseDate_of_isDateLexeme h, instantOfText_ok, String.toList_ofList]

theorem parseDate_day_iff (d : DayText) (i : Instant) :
    parseDate (String.ofList d.write) = .ok i ↔
      ∃ date, d.date? = some date ∧ Instant.ofDate date = i := by
  have hform : isDateLexeme d.write = true := by
    simpa using @isDateLexeme_write d [] (by simp)
  have hday : 'T' ∉ d.write := fun h => by
    rcases isDigit_or_hyphen h with h | h <;> exact absurd h (by decide)
  rw [parseDate_ok_iff_ofText hform, Instant.ofText, if_neg hday, Instant.ofDateText_write]
  cases d.date? <;> simp

theorem parseDate_clock_iff (d : DayText) (c : ClockText) (o : OffsetText) (j : Instant) :
    parseDate (String.ofList (d.write ++ 'T' :: (c.write ++ o.write))) = .ok j ↔
      ∃ date, d.date? = some date ∧
        ⟨date.days * 86400 + c.seconds - o.seconds, 0, o.seconds⟩ = j := by
  have htail : ∀ k ∈ 'T' :: (c.write ++ o.write), isDateChar k = true :=
    List.forall_mem_cons.2 ⟨rfl, List.forall_mem_append.2 ⟨isDateChar_clock, isDateChar_offset⟩⟩
  rw [parseDate_ok_iff_ofText (isDateLexeme_write d htail), Instant.ofText, if_pos (by simp),
    Instant.ofTimestamp_write]
  cases d.date? <;> simp

/-- A day is read with a time behind it exactly if it is read alone.  The time then counts from the
midnight that the day alone is, on a clock that is ahead by the offset. -/
theorem parseDate_time_iff (d : DayText) (c : ClockText) (o : OffsetText) (j : Instant) :
    parseDate (String.ofList (d.write ++ 'T' :: (c.write ++ o.write))) = .ok j ↔
      ∃ i, parseDate (String.ofList d.write) = .ok i ∧
        j = ⟨i.seconds + c.seconds - o.seconds, i.nanos, o.seconds⟩ := by
  rw [parseDate_clock_iff]
  simp only [parseDate_day_iff]
  constructor
  · rintro ⟨date, hdate, rfl⟩
    exact ⟨_, ⟨date, hdate, rfl⟩, rfl⟩
  · rintro ⟨_, ⟨date, hdate, rfl⟩, rfl⟩
    exact ⟨date, hdate, rfl⟩

/-- Half past eleven on the last evening of a year, an hour behind UTC, is in the next year. -/
theorem parseDate_time_newYear :
    parseDate "2012-12-31T23:30:00-01:00" = .ok ⟨1357000200, 0, -3600⟩ := by
  let d : DayText := ⟨⟨['2', '0', '1', '2'], rfl, by simp⟩, ⟨['1', '2'], rfl, by simp⟩,
    ⟨['3', '1'], rfl, by simp⟩⟩
  let c : ClockText := ⟨⟨⟨['2', '3'], rfl, by simp⟩, ⟨['3', '0'], rfl, by simp⟩, by decide,
    by decide⟩, ⟨['0', '0'], rfl, by simp⟩, by decide⟩
  let o : OffsetText := .behind ⟨⟨['0', '1'], rfl, by simp⟩, ⟨['0', '0'], rfl, by simp⟩,
    by decide, by decide⟩
  have hday : parseDate (String.ofList d.write) = .ok ⟨1356912000, 0, 0⟩ := by
    cbv
  have htext :
      "2012-12-31T23:30:00-01:00" = String.ofList (d.write ++ 'T' :: (c.write ++ o.write)) := rfl
  have hsum : (1356912000 + c.seconds - o.seconds : Int) = 1357000200 := by decide
  rw [htext]
  exact (parseDate_time_iff d c o _).2 ⟨_, hday, by rw [hsum]; rfl⟩

end Cimi.Filter
