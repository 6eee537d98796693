/-! # Durations -/

namespace NoteAssistant

/-- A length of time in nanoseconds. -/
structure Duration where
  nanos : Nat
  deriving DecidableEq, Repr

namespace Duration

def ofMillis (n : Nat) : Duration := ⟨n * 1000000⟩
def ofSeconds (n : Nat) : Duration := ⟨n * 1000000000⟩

/-- The digits of `part` after a point that stands for `width` places, without
    the zeros at the end; nothing if all are zero. -/
def fraction (width part : Nat) : List Char :=
  let digits := Nat.toDigits 10 part
  let padded := List.replicate (width - digits.length) '0' ++ digits
  match (padded.reverse.dropWhile (· = '0')).reverse with
  | [] => []
  | ds => '.' :: ds

/-- The duration in the largest unit that makes its integer part nonzero. -/
def text (d : Duration) : String :=
  let n := d.nanos
  let inUnit (scale width : Nat) (unit : String) : String :=
    toString (n / scale) ++ String.ofList (fraction width (n % scale)) ++ unit
  if 1000000000 ≤ n then inUnit 1000000000 9 "s"
  else if 1000000 ≤ n then inUnit 1000000 6 "ms"
  else if 1000 ≤ n then inUnit 1000 3 "µs"
  else toString n ++ "ns"

end Duration

end NoteAssistant
