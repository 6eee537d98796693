import NoteAssistant.Calendar
import NoteAssistant.Text.Blank

/-! # Points in time

A time of day on a date, as read in one place (`Local`) or in universal time
(`Moment`), and the text form of a date with time and offset.
-/

namespace NoteAssistant

/-- A point in universal time. During a leap second `second` stands at the last
    second of the minute and `nanos` goes on beyond one second. -/
structure Moment where
  date : Date
  /-- Second of the day. -/
  second : Nat
  nanos : Nat
  deriving DecidableEq, Repr

/-- A time as shown by a clock whose zone is `offset` seconds ahead of
    universal time. -/
structure Local where
  date : Date
  second : Nat
  offset : Int
  deriving DecidableEq, Repr

namespace Moment

/-- The point in universal time of a local time; the offset is less than a day. -/
def ofLocal (l : Local) (nanos : Nat) : Moment :=
  let s := (l.second : Int) - l.offset
  if s < 0 then ⟨l.date.previous, (s + 86400).toNat, nanos⟩
  else if s < 86400 then ⟨l.date, s.toNat, nanos⟩
  else ⟨l.date.next, (s - 86400).toNat, nanos⟩

/-- Hours and minutes of a second of the day. -/
def clockText (second : Nat) : String :=
  Date.padded 2 (second / 3600) ++ ":" ++ Date.padded 2 (second / 60 % 60)

/-- Seconds of the minute, 60 in a leap second. -/
def secondText (m : Moment) : String :=
  Date.padded 2 (m.second % 60 + m.nanos / 1000000000)

/-- Date and time to the minute. -/
def minuteText (m : Moment) : String := m.date.text ++ " " ++ clockText m.second

/-- Date and time to the second. -/
def text (m : Moment) : String :=
  m.date.text ++ "T" ++ clockText m.second ++ ":" ++ m.secondText

/-- The fraction of the second in three, six or nine digits, whichever are enough. -/
def fractionText (m : Moment) : String :=
  let n := m.nanos % 1000000000
  if n = 0 then ""
  else if n % 1000000 = 0 then "." ++ Date.padded 3 (n / 1000000)
  else if n % 1000 = 0 then "." ++ Date.padded 6 (n / 1000)
  else "." ++ Date.padded 9 n

/-- Date, time and fraction in universal time. -/
def stamp (m : Moment) : String := m.text ++ m.fractionText ++ "Z"

/-- Up to `width` digits at the start of a text, at least one. -/
def digits? (width : Nat) (s : List Char) : Option (Nat × List Char) :=
  let ds := (s.take width).takeWhile Char.isDigit
  if ds = [] then none
  else some (ds.foldl (fun n c => 10 * n + (c.toNat - 48)) 0, s.drop ds.length)

def skip? (c : Char) : List Char → Option (List Char)
  | d :: s => if c = d then some s else none
  | [] => none

/-- A field of up to two digits, white space before it allowed. -/
def field? (s : List Char) : Option (Nat × List Char) := digits? 2 (Text.trimStart s)

/-- A year of up to four digits, or of any number of digits after a sign. -/
def year? (s : List Char) : Option (Int × List Char) :=
  match Text.trimStart s with
  | '-' :: s => (digits? s.length s).map fun (y, r) => (-(y : Int), r)
  | '+' :: s => (digits? s.length s).map fun (y, r) => ((y : Int), r)
  | s => (digits? 4 s).map fun (y, r) => ((y : Int), r)

/-- The fraction after a point in nanoseconds; digits beyond the ninth are dropped. -/
def nanos? : List Char → Option (Nat × List Char)
  | '.' :: s =>
    let ds := s.takeWhile Char.isDigit
    let kept := (ds ++ List.replicate 9 '0').take 9
    if ds = [] then none
    else some (kept.foldl (fun n c => 10 * n + (c.toNat - 48)) 0, s.drop ds.length)
  | s => some (0, s)

/-- Two digits exactly. -/
def twoDigits? : List Char → Option (Nat × List Char)
  | a :: b :: s =>
    if a.isDigit && b.isDigit then some (10 * (a.toNat - 48) + (b.toNat - 48), s) else none
  | _ => none

/-- Colons and white space between the hours and the minutes of an offset. -/
def isOffsetGap (c : Char) : Bool := c = ':' || Text.isBlank c

/-- The zone of a time: `Z`, `UTC`, or a sign with hours and minutes, in seconds. -/
def offset? (s : List Char) : Option (Int × List Char) :=
  match s with
  | 'Z' :: r | 'z' :: r => some (0, r)
  | _ =>
    if Text.lowerAscii (s.take 3) = ['u', 't', 'c'] then some (0, s.drop 3)
    else do
      let (sign, s) ← match s with
        | '+' :: r => some (1, r)
        | '-' :: r => some (-1, r)
        | '−' :: r => some (-1, r)
        | _ => none
      let (hours, s) ← twoDigits? s
      let (minutes, s) ← twoDigits? (s.dropWhile isOffsetGap)
      if 60 ≤ minutes then none
      else
        let n : Int := hours * 3600 + minutes * 60
        if n < 86400 then some (sign * n, s) else none

/-- Reads a date with time and offset; white space around the parts is skipped. -/
def parse? (text : String) : Option Moment := do
  let (year, s) ← year? text.toList
  let s ← skip? '-' (Text.trimStart s)
  let (month, s) ← field? s
  let s ← skip? '-' (Text.trimStart s)
  let (day, s) ← field? s
  let s ← match s with
    | c :: s => if c = 'T' || c = 't' || c = ' ' then some s else none
    | [] => none
  let (hour, s) ← field? s
  let s ← skip? ':' (Text.trimStart s)
  let (minute, s) ← field? s
  let s ← skip? ':' (Text.trimStart s)
  let (second, s) ← field? s
  let (nanos, s) ← nanos? s
  let (offset, s) ← offset? (Text.trimStart s)
  let date : Date := ⟨year, month, day⟩
  if ¬ date.Valid ∨ 24 ≤ hour ∨ 60 ≤ minute ∨ 61 ≤ second ∨ ¬ s.all Text.isBlank then none
  else
    let (second, nanos) := if second = 60 then (59, nanos + 1000000000) else (second, nanos)
    some (ofLocal ⟨date, hour * 3600 + minute * 60 + second, offset⟩ nanos)

end Moment

namespace Local

/-- The time in universal time so many seconds after 1970 began. -/
def ofEpoch (seconds : Nat) : Local :=
  ⟨(Date.mk 1970 1 1).later (seconds / 86400), seconds % 86400, 0⟩

/-- The offset in hours and minutes, rounded to the nearest minute. -/
def offsetText (l : Local) : String :=
  let minutes := (l.offset.natAbs + 30) / 60
  (if l.offset < 0 then "-" else "+") ++ Date.padded 2 (minutes / 60) ++ ":" ++
    Date.padded 2 (minutes % 60)

/-- Date, time to the minute, offset and weekday. -/
def text (l : Local) : String :=
  s!"{l.date.text} {Moment.clockText l.second} {l.offsetText} ({l.date.weekdayName})"

end Local

end NoteAssistant
