import Mathlib.Algebra.Order.Group.Int
import Mathlib.Order.Monotone.Basic
import Mathlib.Order.SuccPred.Basic
import NoteAssistant.Calendar

/-! # Days and their numbers

The number of a day counts the days of the calendar: it goes up by one from a day to the next
(`Date.number_next`), and days are in the order of their numbers (`Date.number_lt_iff`). So
distances between days are differences of numbers.
-/

namespace NoteAssistant.Date

/-! ## Months and years -/

def yearLength (year : Int) : Nat := if isLeap year then 366 else 365

theorem monthLength_bounds (year : Int) (month : Nat) :
    28 ≤ monthLength year month ∧ monthLength year month ≤ 31 := by
  unfold monthLength
  split
  case h_1 => split <;> decide
  all_goals decide

theorem yearLength_bounds (year : Int) : 365 ≤ yearLength year ∧ yearLength year ≤ 366 := by
  unfold yearLength
  split <;> decide

theorem daysBefore_succ (year : Int) {month : Nat} (pos : 1 ≤ month) :
    daysBefore year (month + 1) = daysBefore year month + monthLength year month := by
  cases month with
  | zero => omega
  | succ month => rfl

theorem daysBefore_thirteen (year : Int) : daysBefore year 13 = yearLength year := by
  simp only [daysBefore, monthLength, yearLength]
  split <;> rfl

/-- A year in four is a leap year, but of the whole centuries only one in four. -/
theorem daysBeforeYear_succ (year : Int) :
    daysBeforeYear (year + 1) = daysBeforeYear year + yearLength year := by
  simp only [daysBeforeYear, yearLength, isLeap, Bool.and_eq_true, Bool.or_eq_true,
    decide_eq_true_eq, ne_eq]
  split <;> simp at * <;> omega

theorem daysBefore_le (year : Int) {month later : Nat} (pos : 1 ≤ month) (lt : month < later) :
    daysBefore year month + monthLength year month ≤ daysBefore year later := by
  induction later, lt using Nat.le_induction with
  | base => exact (daysBefore_succ year pos).ge
  | succ later lt ih =>
      rw [daysBefore_succ year (by omega)]
      omega

theorem daysBeforeYear_le {year later : Int} (lt : year < later) :
    daysBeforeYear year + yearLength year ≤ daysBeforeYear later := by
  rw [← daysBeforeYear_succ]
  refine monotone_int_of_le_succ (fun n => ?_) lt
  rw [daysBeforeYear_succ]
  omega

/-! ## The order of days -/

/-- The calendar's order: by year, then by month, then by day. -/
def Before (a b : Date) : Prop :=
  a.year < b.year
    ∨ a.year = b.year ∧ (a.month < b.month ∨ a.month = b.month ∧ a.day < b.day)

variable {a b d : Date}

theorem before_or_eq_or_before (a b : Date) : a.Before b ∨ a = b ∨ b.Before a := by
  obtain ⟨year, month, day⟩ := a
  obtain ⟨year', month', day'⟩ := b
  simp only [Before, Date.mk.injEq]
  omega

theorem lt_number (valid : d.Valid) : daysBeforeYear d.year < d.number := by
  have one : 1 ≤ d.day := valid.2.2.1
  rw [number]
  omega

theorem number_le (valid : d.Valid) : d.number ≤ daysBeforeYear d.year + yearLength d.year := by
  obtain ⟨pos, le, -, fits⟩ := valid
  have months : daysBefore d.year d.month + monthLength d.year d.month ≤ daysBefore d.year 13 :=
    daysBefore_le d.year pos (by omega)
  rw [daysBefore_thirteen] at months
  rw [number]
  omega

theorem number_lt_of_before (first : a.Valid) (second : b.Valid) (before : a.Before b) :
    a.number < b.number := by
  rcases before with year | ⟨year, month | ⟨month, day⟩⟩
  · calc
      a.number ≤ daysBeforeYear a.year + yearLength a.year := number_le first
      _ ≤ daysBeforeYear b.year := daysBeforeYear_le year
      _ < b.number := lt_number second
  · have months := daysBefore_le a.year first.1 month
    have fits : a.day ≤ monthLength a.year a.month := first.2.2.2
    have one : 1 ≤ b.day := second.2.2.1
    rw [number, number, ← year]
    omega
  · rw [number, number, ← year, ← month]
    omega

theorem number_lt_iff (first : a.Valid) (second : b.Valid) :
    a.number < b.number ↔ a.Before b := by
  refine ⟨fun lt => ?_, number_lt_of_before first second⟩
  rcases before_or_eq_or_before a b with before | rfl | after
  · exact before
  · exact absurd lt (lt_irrefl _)
  · exact absurd lt (number_lt_of_before second first after).asymm

theorem eq_of_number_eq (first : a.Valid) (second : b.Valid) (same : a.number = b.number) :
    a = b := by
  rcases before_or_eq_or_before a b with before | same | after
  · exact absurd same (number_lt_of_before first second before).ne
  · exact same
  · exact absurd same (number_lt_of_before second first after).ne'

/-- Days less than a year apart are in one year or in years that follow each other. -/
theorem year_near (first : a.Valid) (second : b.Valid) (near : b.number - a.number < 365) :
    b.year ≤ a.year + 1 := by
  by_contra far
  have between : daysBeforeYear (a.year + 1) + yearLength (a.year + 1) ≤ daysBeforeYear b.year :=
    daysBeforeYear_le (by omega)
  have := number_le first
  have := lt_number second
  have := yearLength_bounds (a.year + 1)
  rw [daysBeforeYear_succ] at between
  omega

/-! ## From day to day -/

theorem valid_next (valid : d.Valid) : d.next.Valid := by
  have month := monthLength_bounds d.year (d.month + 1)
  have january := monthLength_bounds (d.year + 1) 1
  obtain ⟨pos, le, one, fits⟩ := valid
  unfold next Valid
  split
  case isTrue => dsimp only; omega
  case isFalse => split <;> dsimp only <;> omega

theorem number_next (valid : d.Valid) : d.next.number = d.number + 1 := by
  obtain ⟨pos, le, one, fits⟩ := valid
  unfold next
  split
  case isTrue =>
    simp only [number]
    omega
  case isFalse lastDay =>
    split
    case isTrue =>
      simp only [number, daysBefore_succ d.year pos]
      omega
    case isFalse lastMonth =>
      have month : d.month = 12 := by omega
      have whole : daysBefore d.year 12 + monthLength d.year 12 = yearLength d.year :=
        daysBefore_thirteen d.year
      have january : daysBefore (d.year + 1) 1 = 0 := rfl
      rw [month] at fits lastDay
      simp only [number, daysBeforeYear_succ, month, january]
      omega

theorem valid_previous (valid : d.Valid) : d.previous.Valid := by
  have month := monthLength_bounds d.year (d.month - 1)
  have december : monthLength (d.year - 1) 12 = 31 := rfl
  obtain ⟨pos, le, one, fits⟩ := valid
  unfold previous Valid
  split
  case isTrue => dsimp only; omega
  case isFalse => split <;> dsimp only <;> omega

theorem next_previous (valid : d.Valid) : d.previous.next = d := by
  obtain ⟨pos, le, one, fits⟩ := valid
  obtain ⟨year, month, day⟩ := d
  dsimp only at *
  unfold previous
  dsimp only
  split
  case isTrue =>
    rw [next, if_pos (by dsimp only; omega), Date.mk.injEq]
    exact ⟨rfl, rfl, by dsimp only; omega⟩
  case isFalse =>
    have first : day = 1 := by omega
    split
    case isTrue =>
      rw [next, if_neg (by dsimp only; omega), if_pos (by dsimp only; omega), Date.mk.injEq]
      exact ⟨rfl, by dsimp only; omega, first.symm⟩
    case isFalse =>
      rw [next, if_neg (by simp [monthLength]), if_neg (by simp), Date.mk.injEq]
      exact ⟨by dsimp only; omega, by omega, first.symm⟩

theorem number_previous (valid : d.Valid) : d.previous.number = d.number - 1 := by
  have up := number_next (valid_previous valid)
  rw [next_previous valid] at up
  omega

theorem valid_later (valid : d.Valid) (n : Nat) : (d.later n).Valid := by
  induction n with
  | zero => exact valid
  | succ n ih => exact valid_next ih

theorem number_later (valid : d.Valid) (n : Nat) : (d.later n).number = d.number + n := by
  induction n with
  | zero => simp [later]
  | succ n ih =>
      rw [later, number_next (valid_later valid n), ih]
      omega

theorem valid_earlier (valid : d.Valid) (n : Nat) : (d.earlier n).Valid := by
  induction n with
  | zero => exact valid
  | succ n ih => exact valid_previous ih

theorem number_earlier (valid : d.Valid) (n : Nat) : (d.earlier n).number = d.number - n := by
  induction n with
  | zero => simp [earlier]
  | succ n ih =>
      rw [earlier, number_previous (valid_earlier valid n), ih]
      omega

end NoteAssistant.Date
