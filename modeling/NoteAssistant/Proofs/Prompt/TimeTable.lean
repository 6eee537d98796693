import NoteAssistant.Proofs.Calendar.Periods
import NoteAssistant.Prompt.TimeTable

/-! # The periods of the time table

`TimeTable.Meanings.Right` says which days the eight expressions stand for, and the table of
every day is right (`TimeTable.rows_right`). A clock shows the years between two ends only. On a
day that is not in the first or the last of them every step by which the table can be computed
stays within the clock's years and finds a day that the calendar has (`ClockYears.spans?_eq`),
so there is no need of a day to fall back on.
-/

namespace NoteAssistant

namespace TimeTable

/-- The periods that the expressions of the table stand for. -/
structure Meanings where
  today : Period
  yesterday : Period
  dayBefore : Period
  week : Period
  lastWeek : Period
  month : Period
  lastMonth : Period
  year : Period

namespace Meanings

def periods (m : Meanings) : List Period :=
  [m.today, m.yesterday, m.dayBefore, m.week, m.lastWeek, m.month, m.lastMonth, m.year]

/-- What the expressions have to stand for on a day. -/
structure Right (m : Meanings) (today : Date) : Prop where
  proper : ∀ p ∈ m.periods, p.Proper
  today_single : m.today = (today, today)
  yesterday_single : m.yesterday.1 = m.yesterday.2 ∧ m.yesterday.2.next = today
  dayBefore_single : m.dayBefore.1 = m.dayBefore.2 ∧ m.dayBefore.2.next = m.yesterday.1
  week_holds : m.week.IsWeek ∧ m.week.Holds today
  week_unique : ∀ p : Period, p.IsWeek → p.Holds today → p = m.week
  /-- The seven days before this week. -/
  lastWeek_ends : m.lastWeek.IsWeek ∧ m.lastWeek.2.next = m.week.1
  month_holds : ∀ d, m.month.Holds d ↔ d.Valid ∧ d.year = today.year ∧ d.month = today.month
  /-- The whole month of the day on which it ends. -/
  lastMonth_holds : ∀ d, m.lastMonth.Holds d ↔
    d.Valid ∧ d.year = m.lastMonth.2.year ∧ d.month = m.lastMonth.2.month
  lastMonth_ends : m.lastMonth.2.next = m.month.1
  lastMonth_january : today.month = 1 →
    m.lastMonth.2.year = today.year - 1 ∧ m.lastMonth.2.month = 12
  lastMonth_later : today.month ≠ 1 →
    m.lastMonth.2.year = today.year ∧ m.lastMonth.2.month = today.month - 1
  year_whole : m.year = (⟨today.year, 1, 1⟩, ⟨today.year, 12, 31⟩)

end Meanings

section Day

variable (today : Date)

/-- This week's Monday. -/
def monday : Date := today.earlier today.weekday

/-- The last day of the month before this one. -/
def lastMonthEnd : Date := today.firstOfMonth.previous

def meanings : Meanings where
  today := (today, today)
  yesterday := (today.earlier 1, today.earlier 1)
  dayBefore := (today.earlier 2, today.earlier 2)
  week := (monday today, (monday today).later 6)
  lastWeek := ((monday today).earlier 7, (monday today).earlier 1)
  month := (today.firstOfMonth, today.lastOfMonth)
  lastMonth := ((lastMonthEnd today).firstOfMonth, lastMonthEnd today)
  year := (⟨today.year, 1, 1⟩, ⟨today.year, 12, 31⟩)

variable {today}

theorem valid_monday (valid : today.Valid) : (monday today).Valid := Date.valid_earlier valid _

theorem valid_lastMonthEnd (valid : today.Valid) : (lastMonthEnd today).Valid :=
  Date.valid_previous (Date.valid_firstOfMonth valid)

theorem weekday_monday (valid : today.Valid) : (monday today).weekday = 0 := by
  have back := Date.weekday_earlier valid today.weekday
  unfold monday
  omega

theorem isWeek_week (valid : today.Valid) : (meanings today).week.IsWeek :=
  .of_monday (valid_monday valid) (Date.valid_later (valid_monday valid) 6)
    (weekday_monday valid) (Date.number_later (valid_monday valid) 6)

theorem isWeek_lastWeek (valid : today.Valid) : (meanings today).lastWeek.IsWeek := by
  have here := valid_monday valid
  have monday := weekday_monday valid
  have back := Date.weekday_earlier here 7
  have first := Date.number_earlier here 7
  have last := Date.number_earlier here 1
  exact .of_monday (Date.valid_earlier here 7) (Date.valid_earlier here 1) (by omega) (by omega)

theorem lastWeek_ends (valid : today.Valid) :
    (meanings today).lastWeek.2.next = (meanings today).week.1 :=
  Date.next_previous (valid_monday valid)

theorem week_holds (valid : today.Valid) : (meanings today).week.Holds today := by
  have first : (monday today).number = today.number - today.weekday :=
    Date.number_earlier valid today.weekday
  have last := Date.number_later (valid_monday valid) 6
  have inside := Date.weekday_lt today
  refine ⟨valid, ?_, ?_⟩
  · dsimp only [meanings]
    omega
  · dsimp only [meanings]
    omega

theorem lastMonth_holds (valid : today.Valid) (d : Date) :
    (meanings today).lastMonth.Holds d ↔
      d.Valid ∧ d.year = (lastMonthEnd today).year ∧ d.month = (lastMonthEnd today).month := by
  have month := Period.holds_month (d := d) (valid_lastMonthEnd valid)
  rwa [lastMonthEnd, Date.lastOfMonth_before] at month

theorem lastMonthEnd_january (january : today.month = 1) :
    lastMonthEnd today = ⟨today.year - 1, 12, 31⟩ := by
  simp [lastMonthEnd, Date.previous, Date.firstOfMonth, january]

theorem lastMonthEnd_later (valid : today.Valid) (later : today.month ≠ 1) :
    (lastMonthEnd today).year = today.year ∧ (lastMonthEnd today).month = today.month - 1 := by
  have pos : 1 ≤ today.month := valid.1
  have after : 1 < today.month := by omega
  simp [lastMonthEnd, Date.previous, Date.firstOfMonth, after]

theorem proper (valid : today.Valid) : ∀ p ∈ (meanings today).periods, p.Proper := by
  have month := Period.Proper.month (valid_lastMonthEnd valid)
  rw [lastMonthEnd, Date.lastOfMonth_before] at month
  simp only [Meanings.periods, List.forall_mem_cons]
  exact ⟨.single valid, .single (Date.valid_earlier valid 1), .single (Date.valid_earlier valid 2),
    (isWeek_week valid).proper, (isWeek_lastWeek valid).proper, .month valid, month,
    .year today.year, by simp⟩

theorem meanings_right (valid : today.Valid) : (meanings today).Right today where
  proper := proper valid
  today_single := rfl
  yesterday_single := ⟨rfl, Date.next_previous valid⟩
  dayBefore_single := ⟨rfl, Date.next_previous (Date.valid_earlier valid 1)⟩
  week_holds := ⟨isWeek_week valid, week_holds valid⟩
  week_unique := by
    intro p week holds
    exact Period.isWeek_unique week (isWeek_week valid) holds (week_holds valid)
  lastWeek_ends := ⟨isWeek_lastWeek valid, lastWeek_ends valid⟩
  month_holds := fun _ => Period.holds_month valid
  lastMonth_holds := lastMonth_holds valid
  lastMonth_ends := Date.next_previous (Date.valid_firstOfMonth valid)
  lastMonth_january := by
    intro january
    rw [meanings, lastMonthEnd_january january]
    exact ⟨rfl, rfl⟩
  lastMonth_later := lastMonthEnd_later valid
  year_whole := rfl

end Day

end TimeTable

/-- The years that a clock can show. -/
structure ClockYears where
  first : Int
  last : Int

namespace ClockYears

/-- A day, if the calendar has it and the clock can show it. -/
def day? (years : ClockYears) (d : Date) : Option Date :=
  if d.Valid ∧ years.first ≤ d.year ∧ d.year ≤ years.last then some d else none

/-- The first day of the month after that of a day. -/
def nextMonth (d : Date) : Date :=
  if d.month = 12 then ⟨d.year + 1, 1, 1⟩ else ⟨d.year, d.month + 1, 1⟩

/-- The spans of the table by steps that fail where they leave the calendar or the clock's
    years. -/
def spans? (years : ClockYears) (today : Date) : Option (List Period) := do
  let monday ← years.day? (today.earlier today.weekday)
  let monthStart ← years.day? today.firstOfMonth
  let lastMonthEnd ← years.day? monthStart.previous
  let lastMonthStart ← years.day? lastMonthEnd.firstOfMonth
  let yearStart ← years.day? ⟨today.year, 1, 1⟩
  let yesterday ← years.day? (today.earlier 1)
  let dayBefore ← years.day? (today.earlier 2)
  let sunday ← years.day? (monday.later 6)
  let lastMonday ← years.day? (monday.earlier 7)
  let lastSunday ← years.day? (monday.earlier 1)
  let nextMonthStart ← years.day? (nextMonth today)
  let monthEnd ← years.day? nextMonthStart.previous
  let yearEnd ← years.day? ⟨today.year, 12, 31⟩
  some [(today, today), (yesterday, yesterday), (dayBefore, dayBefore), (monday, sunday),
    (lastMonday, lastSunday), (monthStart, monthEnd), (lastMonthStart, lastMonthEnd),
    (yearStart, yearEnd)]

/-- A day well inside the clock's years. -/
structure Inside (years : ClockYears) (today : Date) : Prop where
  valid : today.Valid
  after_first : years.first < today.year
  before_last : today.year < years.last

/-- A day in the year of another one or in the year before or after it. -/
structure Near (today d : Date) : Prop where
  valid : d.Valid
  not_before : today.year ≤ d.year + 1
  not_after : d.year ≤ today.year + 1

variable {years : ClockYears} {today d : Date}

theorem Near.of_number (here : today.Valid) (valid : d.Valid)
    (before : today.number - d.number < 365) (after : d.number - today.number < 365) :
    Near today d :=
  ⟨valid, Date.year_near valid here before, Date.year_near here valid after⟩

/-- A step to a day near a day well inside the clock's years succeeds. -/
theorem Inside.step {α : Type} {next : Date → Option α} {result : Option α}
    (inside : years.Inside today) (near : Near today d) (rest : next d = result) :
    (years.day? d >>= next) = result := by
  obtain ⟨-, first, last⟩ := inside
  obtain ⟨valid, before, after⟩ := near
  have shown : years.day? d = some d := if_pos ⟨valid, by omega, by omega⟩
  rw [shown, ← rest]
  rfl

theorem Near.earlier (here : today.Valid) {n : Nat} (few : n < 365) :
    Near today (today.earlier n) := by
  have number := Date.number_earlier here n
  exact .of_number here (Date.valid_earlier here n) (by omega) (by omega)

theorem Near.lastMonthEnd (here : today.Valid) : Near today (TimeTable.lastMonthEnd today) := by
  have first := Date.valid_firstOfMonth here
  have near : Near today.firstOfMonth (today.firstOfMonth.earlier 1) := .earlier first (by decide)
  exact ⟨near.valid, near.not_before, near.not_after⟩

theorem Near.nextMonth (here : today.Valid) : Near today (nextMonth today) := by
  have long := Date.monthLength_bounds today.year (today.month + 1)
  have january := Date.monthLength_bounds (today.year + 1) 1
  obtain ⟨pos, le, -⟩ := here
  unfold ClockYears.nextMonth
  split
  case isTrue =>
    exact ⟨⟨by simp, by simp, le_rfl, by dsimp only; omega⟩, by dsimp only; omega, le_rfl⟩
  case isFalse =>
    exact ⟨⟨by simp, by dsimp only; omega, le_rfl, by dsimp only; omega⟩, by simp, by simp⟩

theorem previous_nextMonth (valid : d.Valid) : (nextMonth d).previous = d.lastOfMonth := by
  obtain ⟨year, month, day⟩ := d
  have pos : 1 ≤ month := valid.1
  unfold nextMonth
  split
  case isTrue december =>
    obtain rfl : month = 12 := december
    simp [Date.previous, Date.lastOfMonth, Date.monthLength]
  case isFalse =>
    have later : 1 < month + 1 := by omega
    simp [Date.previous, Date.lastOfMonth, later]

/-- Well inside the clock's years every step succeeds, and the spans are those of the table. -/
theorem spans?_eq (inside : years.Inside today) :
    years.spans? today = some (TimeTable.spans today) := by
  have here := inside.valid
  have weekday := Date.weekday_lt today
  have monday := TimeTable.valid_monday here
  have mondayNumber : (TimeTable.monday today).number = today.number - today.weekday :=
    Date.number_earlier here _
  have lastWeek (n : Nat) (few : n < 8) : Near today ((TimeTable.monday today).earlier n) := by
    have number := Date.number_earlier monday n
    exact .of_number here (Date.valid_earlier monday n) (by omega) (by omega)
  have sunday : Near today ((TimeTable.monday today).later 6) := by
    have number := Date.number_later monday 6
    exact .of_number here (Date.valid_later monday 6) (by omega) (by omega)
  have lastMonth := Near.lastMonthEnd here
  have lastMonthStart : Near today (TimeTable.lastMonthEnd today).firstOfMonth :=
    { lastMonth with valid := Date.valid_firstOfMonth lastMonth.valid }
  have sameYear {d : Date} (day : d.Valid) (year : d.year = today.year) : Near today d :=
    ⟨day, by omega, by omega⟩
  have month := Period.Proper.month here
  have year := Period.Proper.year today.year
  apply inside.step (.earlier here (by omega))
  apply inside.step (sameYear month.first_valid rfl)
  apply inside.step lastMonth
  apply inside.step lastMonthStart
  apply inside.step (sameYear year.first_valid rfl)
  apply inside.step (.earlier here (by decide))
  apply inside.step (.earlier here (by decide))
  apply inside.step sunday
  apply inside.step (lastWeek 7 (by decide))
  apply inside.step (lastWeek 1 (by decide))
  apply inside.step (.nextMonth here)
  rw [previous_nextMonth here]
  apply inside.step (sameYear month.last_valid rfl)
  apply inside.step (sameYear year.last_valid rfl)
  rfl

end ClockYears

namespace TimeTable

/-- The rows of every day, in either language, stand for what they have to. On a day well inside
    the clock's years none of the steps to them fails. -/
theorem rows_right (today : Date) (lang : Lang) {years : ClockYears}
    (inside : years.Inside today) :
    ∃ m : Meanings, m.Right today
      ∧ rows today lang = (labels lang).zipWith (fun label p => ⟨label, p.1, p.2⟩) m.periods
      ∧ (rows today lang).length = 8
      ∧ years.spans? today = some m.periods := by
  refine ⟨meanings today, meanings_right inside.valid, rfl, ?_, ClockYears.spans?_eq inside⟩
  cases lang <;> rfl

/-- The year 0 is a leap year, and before its January comes the December of the year -1. -/
theorem rows_right_january :
    (ClockYears.mk (-262143) 262142).Inside ⟨0, 1, 1⟩
      ∧ (∃ m : Meanings, m.Right ⟨0, 1, 1⟩
        ∧ rows ⟨0, 1, 1⟩ .en =
          (labels .en).zipWith (fun label p => ⟨label, p.1, p.2⟩) m.periods
        ∧ (ClockYears.mk (-262143) 262142).spans? ⟨0, 1, 1⟩ = some m.periods)
      ∧ (rows ⟨0, 1, 1⟩ .en)[6]? = some ⟨"last month", ⟨-1, 12, 1⟩, ⟨-1, 12, 31⟩⟩ := by
  have inside : (ClockYears.mk (-262143) 262142).Inside ⟨0, 1, 1⟩ :=
    ⟨by decide, by decide, by decide⟩
  obtain ⟨m, right, rows, -, spans⟩ := rows_right ⟨0, 1, 1⟩ .en inside
  exact ⟨inside, ⟨m, right, rows, spans⟩, by decide⟩

end TimeTable

end NoteAssistant
