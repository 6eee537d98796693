import NoteAssistant.Proofs.Calendar.Numbering

/-! # Weeks and months

A period is given by its first and its last day. The days from the first to the last day of a
month are those with its year and month (`Period.holds_month`), and every day lies in one week
(`Period.isWeek_unique`).
-/

namespace NoteAssistant

/-- The days from a first to a last one. -/
abbrev Period := Date × Date

namespace Date

variable {d : Date}

theorem valid_firstOfMonth (valid : d.Valid) : d.firstOfMonth.Valid :=
  ⟨valid.1, valid.2.1, le_rfl, valid.2.2.1.trans valid.2.2.2⟩

theorem valid_lastOfMonth (valid : d.Valid) : d.lastOfMonth.Valid :=
  ⟨valid.1, valid.2.1, valid.2.2.1.trans valid.2.2.2, le_rfl⟩

/-- A month begins on the day after the last one of the month before. -/
theorem lastOfMonth_before (d : Date) :
    d.firstOfMonth.previous.lastOfMonth = d.firstOfMonth.previous := by
  unfold firstOfMonth previous
  rw [if_neg (lt_irrefl 1)]
  split <;> rfl

theorem weekday_lt (d : Date) : d.weekday < 7 := by
  unfold weekday
  omega

/-- The weekdays follow one another, so one day that is right makes all of them right. -/
theorem weekday_next (valid : d.Valid) : d.next.weekday = (d.weekday + 1) % 7 := by
  unfold weekday
  rw [number_next valid]
  omega

example : (Date.mk 2026 3 4).weekdayName = "Wednesday" := by decide

theorem weekday_earlier (valid : d.Valid) (n : Nat) :
    ((d.earlier n).weekday : Int) = (d.weekday - n) % 7 := by
  unfold weekday
  rw [number_earlier valid]
  omega

end Date

namespace Period

/-- A day of a period. -/
structure Holds (p : Period) (d : Date) : Prop where
  valid : d.Valid
  first_le : p.1.number ≤ d.number
  le_last : d.number ≤ p.2.number

/-- A period that begins and ends on days of the calendar and does not end before it begins. -/
structure Proper (p : Period) : Prop where
  first_valid : p.1.Valid
  last_valid : p.2.Valid
  first_le_last : p.1.number ≤ p.2.number

variable {p q : Period} {d t : Date}

theorem Proper.single (valid : d.Valid) : Proper (d, d) := ⟨valid, valid, le_rfl⟩

theorem Proper.month (valid : t.Valid) : Proper (t.firstOfMonth, t.lastOfMonth) := by
  refine ⟨Date.valid_firstOfMonth valid, Date.valid_lastOfMonth valid, ?_⟩
  have one : 1 ≤ Date.monthLength t.year t.month := valid.2.2.1.trans valid.2.2.2
  simp only [Date.number, Date.firstOfMonth, Date.lastOfMonth]
  omega

theorem Proper.year (year : Int) : Proper (⟨year, 1, 1⟩, ⟨year, 12, 31⟩) := by
  have january : (Date.mk year 1 1).Valid := by simp [Date.Valid, Date.monthLength]
  have december : (Date.mk year 12 31).Valid := by simp [Date.Valid, Date.monthLength]
  refine ⟨january, december, (Date.number_lt_of_before january december ?_).le⟩
  exact .inr ⟨rfl, .inl (by simp)⟩

/-- The days of a month are all days with its year and month. -/
theorem holds_month (valid : t.Valid) :
    Holds (t.firstOfMonth, t.lastOfMonth) d ↔ d.Valid ∧ d.year = t.year ∧ d.month = t.month := by
  have first := Date.valid_firstOfMonth valid
  have last := Date.valid_lastOfMonth valid
  constructor
  · rintro ⟨day, first_le, le_last⟩
    have below := mt (Date.number_lt_iff day first).mpr first_le.not_gt
    have above := mt (Date.number_lt_iff last day).mpr le_last.not_gt
    simp only [Date.Before, Date.firstOfMonth, Date.lastOfMonth] at below above
    exact ⟨day, by omega, by omega⟩
  · rintro ⟨day, year, month⟩
    have one : 1 ≤ d.day := day.2.2.1
    have fits : d.day ≤ Date.monthLength t.year t.month := year ▸ month ▸ day.2.2.2
    simp only [Date.firstOfMonth, Date.lastOfMonth]
    constructor
    · exact day
    · simp only [Date.number, year, month]
      omega
    · simp only [Date.number, year, month]
      omega

/-- A week goes from a Monday to the Sunday after it. -/
structure IsWeek (p : Period) : Prop where
  first_valid : p.1.Valid
  last_valid : p.2.Valid
  monday : p.1.weekday = 0
  sunday : p.2.weekday = 6
  days : p.2.number = p.1.number + 6

/-- The six days after a Monday make it a week. -/
theorem IsWeek.of_monday {first last : Date} (valid : first.Valid) (valid' : last.Valid)
    (monday : first.weekday = 0) (days : last.number = first.number + 6) :
    IsWeek (first, last) := by
  refine ⟨valid, valid', monday, ?_, days⟩
  dsimp only
  unfold Date.weekday at *
  omega

theorem IsWeek.proper (week : p.IsWeek) : p.Proper :=
  ⟨week.first_valid, week.last_valid, by rw [week.days]; omega⟩

theorem isWeek_unique (first : p.IsWeek) (second : q.IsWeek) (inFirst : p.Holds d)
    (inSecond : q.Holds d) : p = q := by
  have mondays : p.1.number = q.1.number := by
    have := first.monday
    have := second.monday
    have := first.days
    have := second.days
    obtain ⟨-, _, _⟩ := inFirst
    obtain ⟨-, _, _⟩ := inSecond
    unfold Date.weekday at *
    omega
  have sundays : p.2.number = q.2.number := by rw [first.days, second.days, mondays]
  exact Prod.ext (Date.eq_of_number_eq first.first_valid second.first_valid mondays)
    (Date.eq_of_number_eq first.last_valid second.last_valid sundays)

end Period

end NoteAssistant
