import NoteAssistant.Number.Shortest
import NoteAssistant.Text.Blank

/-! # Numbers written in decimal

Whole numbers and numbers with a point or an exponent, as configuration values
write them. The value is rounded once.
-/

namespace NoteAssistant.Number

/-- The value of a run of decimal digits. -/
def digitsValue (ds : List Char) : Nat := ds.foldl (fun n c => 10 * n + (c.toNat - 48)) 0

/-- The number of digits alone; `none` for anything else. -/
def natural? (s : List Char) : Option Nat :=
  if s ≠ [] ∧ s.all Char.isDigit then some (digitsValue s) else none

/-- An optional sign before the rest. -/
def sign : List Char → Bool × List Char
  | '-' :: s => (true, s)
  | '+' :: s => (false, s)
  | s => (false, s)

/-- A whole number with an optional plus sign that fits 64 bits. -/
def unsigned? (s : List Char) : Option Nat :=
  match s with
  | '-' :: _ => none
  | _ => (natural? (sign s).2).filter (· < UInt64.size)

/-- A whole number with an optional sign that fits 64 bits in two's complement. -/
def signed? (s : List Char) : Option Int := do
  let (negative, digits) := sign s
  let n ← natural? digits
  let v : Int := if negative then -(n : Int) else n
  if -0x8000000000000000 ≤ v ∧ v < 0x8000000000000000 then some v else none

/-- The exponent part of a number; nothing is exponent 0. -/
def exponent? : List Char → Option Int
  | [] => some 0
  | c :: s => do
    if c ≠ 'e' ∧ c ≠ 'E' then none
    let (negative, digits) := sign s
    let n ← natural? digits
    some (if negative then -(n : Int) else n)

/-- The number of a text with optional sign, digits on either side of an optional
    point, and optional exponent; also the names of infinity and NaN. -/
def double? (s : List Char) : Option Double := do
  let (negative, s) := sign s
  let signed (x : Double) : Double := if negative then -x else x
  let name := String.ofList (Text.lowerAscii s)
  if name = "inf" || name = "infinity" then some (signed Double.infinity)
  else if name = "nan" then some (signed Double.nan)
  else
    let whole := s.takeWhile Char.isDigit
    let rest := s.dropWhile Char.isDigit
    let (fraction, rest) := match rest with
      | '.' :: r => (r.takeWhile Char.isDigit, r.dropWhile Char.isDigit)
      | r => ([], r)
    if whole = [] ∧ fraction = [] then none
    let e ← exponent? rest
    some (signed (Double.ofDecimal (digitsValue (whole ++ fraction)) (e - fraction.length)))

end NoteAssistant.Number
