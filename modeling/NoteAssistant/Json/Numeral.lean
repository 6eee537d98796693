import NoteAssistant.Number.Shortest

/-! # JSON numbers

A number as it is written, and the value it stands for. Whole numbers of 64 bits
are exact. Any other number is read through its first digits: as many as fit
64 bits, scaled by one power of ten, each step rounded.
-/

namespace NoteAssistant.Json

structure Numeral where
  negative : Bool
  /-- Digits before the point; no zero in front of another digit. -/
  whole : List Char
  fraction : Option (List Char)
  /-- Whether the exponent is negative, and its digits. -/
  exponent : Option (Bool × List Char)
  deriving DecidableEq, Repr

inductive Number where
  | natural (n : Nat)
  /-- The number `-n`. -/
  | negative (n : Nat)
  | real (x : Double)
  deriving DecidableEq, Repr

namespace Numeral

/-- The number as it is written out: an exponent has its sign. -/
def text (n : Numeral) : List Char :=
  (if n.negative then ['-'] else []) ++ n.whole
    ++ (match n.fraction with
      | some ds => '.' :: ds
      | none => [])
    ++ (match n.exponent with
      | some (true, ds) => 'e' :: '-' :: ds
      | some (false, ds) => 'e' :: '+' :: ds
      | none => [])

def ofNat (n : Nat) : Numeral := ⟨false, Nat.toDigits 10 n, none, none⟩

/-- Digits at the start of a text; at least one. -/
def digits? (s : List Char) : Option (List Char × List Char) :=
  match s.takeWhile Char.isDigit with
  | [] => none
  | ds => some (ds, s.dropWhile Char.isDigit)

/-- The digits before the point: a zero stands alone. -/
def whole? : List Char → Option (List Char × List Char)
  | '0' :: s =>
    match s with
    | c :: _ => if c.isDigit then none else some (['0'], s)
    | [] => some (['0'], s)
  | s => digits? s

def fraction? : List Char → Option (Option (List Char) × List Char)
  | '.' :: s => (digits? s).map fun (ds, r) => (some ds, r)
  | s => some (none, s)

def exponent? : List Char → Option (Option (Bool × List Char) × List Char)
  | c :: s =>
    if c = 'e' || c = 'E' then
      match s with
      | '-' :: s => (digits? s).map fun (ds, r) => (some (true, ds), r)
      | '+' :: s => (digits? s).map fun (ds, r) => (some (false, ds), r)
      | s => (digits? s).map fun (ds, r) => (some (false, ds), r)
    else some (none, c :: s)
  | [] => some (none, [])

/-- The number at the start of a text, and the text after it. -/
def read? (s : List Char) : Option (Numeral × List Char) := do
  let (negative, s) := match s with
    | '-' :: r => (true, r)
    | _ => (false, s)
  let (whole, s) ← whole? s
  let (fraction, s) ← fraction? s
  let (exponent, s) ← exponent? s
  some (⟨negative, whole, fraction, exponent⟩, s)

/-- The greatest number that is read exactly. -/
def limit : Nat := UInt64.size - 1

def digitValue (c : Char) : Nat := c.toNat - 48

/-- The value of digits read while it stays within the limit, and the digits left. -/
def gather (n : Nat) : List Char → Nat × List Char
  | [] => (n, [])
  | c :: cs =>
    let m := 10 * n + digitValue c
    if m ≤ limit then gather m cs else (n, c :: cs)

/-- `x * 10 ^ e` by single rounded steps; `none` beyond the greatest number. -/
def scale (fuel : Nat) (x : Double) (e : Int) : Option Double :=
  match fuel with
  | 0 => some x
  | fuel + 1 =>
    if e.natAbs ≤ 308 then
      let power := Double.ofDecimal 1 e.natAbs
      if 0 ≤ e then
        let y := x * power
        if y.isFinite then some y else none
      else some (x / power)
    else if x.isZero then some x
    else if 0 ≤ e then none
    else scale fuel (x / Double.ofDecimal 1 308) (e + 308)

/-- The value of a number with a point, an exponent or too many digits. -/
def real? (n : Numeral) : Option Double :=
  let fraction := n.fraction.getD []
  let (head, dropped) := gather 0 n.whole
  let (m, rest) := gather head fraction
  let shift : Int := (dropped.length : Int) - (fraction.length - rest.length : Nat)
  let e : Int := match n.exponent with
    | some (negative, ds) =>
      let v : Nat := ds.foldl (fun v c => 10 * v + digitValue c) 0
      if negative then -(v : Int) else v
    | none => 0
  let value : Option Double :=
    if e.natAbs ≤ 0x7fffffff then scale 8 (Double.ofNat m) (shift + e)
    else if m ≠ 0 && 0 ≤ e then none
    else some (Double.ofNat 0)
  value.map fun x => if n.negative then -x else x

/-- The value of a number; `none` if it is beyond the greatest number. -/
def value? (n : Numeral) : Option Number :=
  if n.fraction.isNone && n.exponent.isNone then
    let m := n.whole.foldl (fun v c => 10 * v + digitValue c) 0
    if !n.negative && m ≤ limit then some (.natural m)
    else if n.negative && m ≠ 0 && m ≤ 0x8000000000000000 then some (.negative m)
    else n.real?.map .real
  else n.real?.map .real

/-- The written form of a 32-bit number; none if it is not finite. -/
def ofSingle? (x : Single) : Option Numeral :=
  match read? x.json.toList with
  | some (n, []) => some n
  | _ => none

end Numeral

end NoteAssistant.Json
