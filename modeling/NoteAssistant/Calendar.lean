/-! # Days of the proleptic Gregorian calendar

Days are stepped one at a time; `Date.number` counts them, so that weekdays and
distances are arithmetic.
-/

namespace NoteAssistant

/-- A day; months and days count from 1. -/
structure Date where
  year : Int
  month : Nat
  day : Nat
  deriving DecidableEq, Repr

namespace Date

def isLeap (year : Int) : Bool :=
  year % 4 = 0 && (year % 100 ≠ 0 || year % 400 = 0)

def monthLength (year : Int) (month : Nat) : Nat :=
  match month with
  | 2 => if isLeap year then 29 else 28
  | 4 | 6 | 9 | 11 => 30
  | _ => 31

/-- A day that the calendar has. -/
def Valid (d : Date) : Prop :=
  1 ≤ d.month ∧ d.month ≤ 12 ∧ 1 ≤ d.day ∧ d.day ≤ monthLength d.year d.month

instance (d : Date) : Decidable d.Valid := inferInstanceAs (Decidable (_ ∧ _))

/-- Days of the year before a month begins. -/
def daysBefore (year : Int) : Nat → Nat
  | 0 | 1 => 0
  | month + 1 => daysBefore year month + monthLength year month

/-- Days before a year begins, counted from 1 January of year 1. -/
def daysBeforeYear (year : Int) : Int :=
  let y := year - 1
  365 * y + y / 4 - y / 100 + y / 400

/-- The number of a day; 1 January of year 1 is day 1. -/
def number (d : Date) : Int := daysBeforeYear d.year + daysBefore d.year d.month + d.day

def next (d : Date) : Date :=
  if d.day < monthLength d.year d.month then { d with day := d.day + 1 }
  else if d.month < 12 then ⟨d.year, d.month + 1, 1⟩
  else ⟨d.year + 1, 1, 1⟩

def previous (d : Date) : Date :=
  if 1 < d.day then { d with day := d.day - 1 }
  else if 1 < d.month then ⟨d.year, d.month - 1, monthLength d.year (d.month - 1)⟩
  else ⟨d.year - 1, 12, 31⟩

/-- The day `n` days later. -/
def later (d : Date) : Nat → Date
  | 0 => d
  | n + 1 => (d.later n).next

/-- The day `n` days earlier. -/
def earlier (d : Date) : Nat → Date
  | 0 => d
  | n + 1 => (d.earlier n).previous

/-- Days since the last Monday. -/
def weekday (d : Date) : Nat := ((d.number - 1) % 7).toNat

def weekdayName (d : Date) : String :=
  match d.weekday with
  | 0 => "Monday"
  | 1 => "Tuesday"
  | 2 => "Wednesday"
  | 3 => "Thursday"
  | 4 => "Friday"
  | 5 => "Saturday"
  | _ => "Sunday"

def firstOfMonth (d : Date) : Date := { d with day := 1 }

def lastOfMonth (d : Date) : Date := { d with day := monthLength d.year d.month }

/-- A number with zeros in front up to a width. -/
def padded (width n : Nat) : String :=
  let digits := Nat.toDigits 10 n
  String.ofList (List.replicate (width - digits.length) '0' ++ digits)

/-- Four digits at least; outside 0 to 9999 also the sign. -/
def yearText (year : Int) : String :=
  if 0 ≤ year ∧ year ≤ 9999 then padded 4 year.toNat
  else (if year < 0 then "-" else "+") ++ padded 4 year.natAbs

/-- Year, month and day, joined by hyphens. -/
def text (d : Date) : String :=
  yearText d.year ++ "-" ++ padded 2 d.month ++ "-" ++ padded 2 d.day

end Date

end NoteAssistant
