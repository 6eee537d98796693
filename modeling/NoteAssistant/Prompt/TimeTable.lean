import NoteAssistant.Moment
import NoteAssistant.Prompt.Kind

/-! # The time table

Models resolve expressions such as "last month" poorly. The table gives the days
each of them stands for. Weeks begin on Monday.
-/

namespace NoteAssistant.TimeTable

/-- The days from `first` to `last` that an expression stands for. -/
structure Row where
  label : String
  first : Date
  last : Date
  deriving DecidableEq, Repr

def labels : Lang → List String
  | .zh => ["今天", "昨天", "前天", "本周", "上周", "本月", "上月", "今年"]
  | .en => ["today", "yesterday", "the day before yesterday", "this week", "last week",
      "this month", "last month", "this year"]

/-- The spans of the eight expressions, in the order of their labels. -/
def spans (today : Date) : List (Date × Date) :=
  let monday := today.earlier today.weekday
  let lastMonth := today.firstOfMonth.previous
  [(today, today),
   (today.earlier 1, today.earlier 1),
   (today.earlier 2, today.earlier 2),
   (monday, monday.later 6),
   (monday.earlier 7, monday.earlier 1),
   (today.firstOfMonth, today.lastOfMonth),
   (lastMonth.firstOfMonth, lastMonth),
   (⟨today.year, 1, 1⟩, ⟨today.year, 12, 31⟩)]

def rows (today : Date) (lang : Lang) : List Row :=
  (labels lang).zipWith (fun label (first, last) => ⟨label, first, last⟩) (spans today)

def Row.line (r : Row) : String :=
  if r.first = r.last then s!"| {r.label} | {r.first.text} |\n"
  else s!"| {r.label} | {r.first.text} ~ {r.last.text} |\n"

def heading : Lang → String
  | .zh => "| 时间表述 | 日期范围 |\n| --- | --- |\n"
  | .en => "| Expression | Date range |\n| --- | --- |\n"

def currentTime : Lang → String
  | .zh => "当前时间"
  | .en => "Current time"

/-- The table with the current time below it. -/
def render (now : Local) (lang : Lang) : String :=
  heading lang ++ String.join ((rows now.date lang).map Row.line)
    ++ "\n" ++ currentTime lang ++ ": " ++ now.text

end NoteAssistant.TimeTable
