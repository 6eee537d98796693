import NoteAssistant.Calendar
import NoteAssistant.Number.Written
import NoteAssistant.Text.Search

/-! # Strings, numbers and dates of TOML

Each reader takes its part from the start of a text and gives the rest back.
-/

namespace NoteAssistant.Toml

/-- Characters that may not stand in a string or comment. -/
def isControl (c : Char) : Bool := (c.toNat < 32 && c ≠ '\t') || c.toNat = 127

def isSpace (c : Char) : Bool := c = ' ' || c = '\t'

def skipSpace (s : List Char) : List Char := s.dropWhile isSpace

def hexValue? (c : Char) : Option Nat :=
  if '0' ≤ c && c ≤ '9' then some (c.toNat - 48)
  else if 'a' ≤ c && c ≤ 'f' then some (c.toNat - 87)
  else if 'A' ≤ c && c ≤ 'F' then some (c.toNat - 55)
  else none

/-- The character whose number the hexadecimal digits give. -/
def scalar? (digits : List Char) : Option Char := do
  let vs ← digits.mapM hexValue?
  let n := vs.foldl (fun n v => 16 * n + v) 0
  if n.isValidChar then some (Char.ofNat n) else none

def letter? (c : Char) : Option Char :=
  match c with
  | 'b' => some '\x08'
  | 't' => some '\t'
  | 'n' => some '\n'
  | 'f' => some '\x0c'
  | 'r' => some '\r'
  | '"' => some '"'
  | '\\' => some '\\'
  | _ => none

/-- The character of an escape after its backslash. -/
def escape? : List Char → Option (Char × List Char)
  | 'u' :: r =>
    if r.length < 4 then none else (scalar? (r.take 4)).map fun c => (c, r.drop 4)
  | 'U' :: r =>
    if r.length < 8 then none else (scalar? (r.take 8)).map fun c => (c, r.drop 8)
  | l :: r => (letter? l).map fun c => (c, r)
  | [] => none

theorem length_of_escape? {s rest : List Char} {c : Char} (h : escape? s = some (c, rest)) :
    rest.length < s.length := by
  fun_cases escape? s with
  | case1 r hr => simp [escape?, hr] at h
  | case2 r hr =>
    simp only [escape?, hr, if_false, Option.map_eq_some_iff, Prod.mk.injEq] at h
    obtain ⟨_, -, -, rfl⟩ := h
    simp only [List.length_cons, List.length_drop]; omega
  | case3 r hr => simp [escape?, hr] at h
  | case4 r hr =>
    simp only [escape?, hr, if_false, Option.map_eq_some_iff, Prod.mk.injEq] at h
    obtain ⟨_, -, -, rfl⟩ := h
    simp only [List.length_cons, List.length_drop]; omega
  | case5 l r h1 h2 =>
    rw [escape?] at h
    · simp only [Option.map_eq_some_iff, Prod.mk.injEq] at h
      obtain ⟨_, -, -, rfl⟩ := h
      simp
    · exact h1
    · exact h2
  | case6 => simp [escape?] at h

/-- A basic string after its opening quote. -/
def basic? (s : List Char) : Option (List Char × List Char) :=
  match s with
  | '"' :: r => some ([], r)
  | '\\' :: r =>
    match _h : escape? r with
    | some (c, rest) => (basic? rest).map fun (cs, rest) => (c :: cs, rest)
    | none => none
  | c :: r => if isControl c then none else (basic? r).map fun (cs, rest) => (c :: cs, rest)
  | [] => none
termination_by s.length
decreasing_by
  · have := length_of_escape? _h
    simp only [List.length_cons]
    omega
  · simp

/-- A literal string after its opening apostrophe. -/
def literal? : List Char → Option (List Char × List Char)
  | '\'' :: r => some ([], r)
  | c :: r => if isControl c then none else (literal? r).map fun (cs, rest) => (c :: cs, rest)
  | [] => none

def newline? : List Char → Option (List Char)
  | '\n' :: r => some r
  | '\r' :: '\n' :: r => some r
  | _ => none

/-- The text after blanks and line ends. -/
def skipBlank : List Char → List Char
  | ' ' :: r => skipBlank r
  | '\t' :: r => skipBlank r
  | '\n' :: r => skipBlank r
  | '\r' :: '\n' :: r => skipBlank r
  | s => s

/-- The end of a many-line string: its three quotes, up to two more belonging to
    the text. Gives the quotes that are text and the rest. -/
def closing? (quote : Char) (s : List Char) : Option (List Char × List Char) :=
  let n := min 5 (s.takeWhile (· = quote)).length
  if 3 ≤ n then some (List.replicate (n - 3) quote, s.drop n) else none

/-- A many-line basic string after its opening quotes; `fuel` bounds its length. -/
def manyBasic? : Nat → List Char → Option (List Char × List Char)
  | 0, _ => none
  | fuel + 1, s =>
    let cons (c : Char) (r : List Char) :=
      (manyBasic? fuel r).map fun (cs, rest) => (c :: cs, rest)
    match s with
    | '"' :: r =>
      match closing? '"' s with
      | some found => some found
      | none => cons '"' r
    | '\\' :: r =>
      match newline? (skipSpace r) with
      | some after => manyBasic? fuel (skipBlank after)
      | none =>
        match escape? r with
        | some (c, rest) => cons c rest
        | none => none
    | '\r' :: '\n' :: r => cons '\n' r
    | c :: r => if isControl c && c ≠ '\n' then none else cons c r
    | [] => none

/-- A many-line literal string after its opening apostrophes. -/
def manyLiteral? (s : List Char) : Option (List Char × List Char) :=
  match closing? '\'' s with
  | some found => some found
  | none =>
    match s with
    | '\r' :: '\n' :: r => (manyLiteral? r).map fun (cs, rest) => ('\n' :: cs, rest)
    | c :: r =>
      if isControl c && c ≠ '\n' then none
      else (manyLiteral? r).map fun (cs, rest) => (c :: cs, rest)
    | [] => none

/-- A line end right after the opening quotes is not part of the text. -/
def dropNewline (s : List Char) : List Char := (newline? s).getD s

/-- A string of any of the four kinds. -/
def string? (s : List Char) : Option (String × List Char) :=
  let found := match s with
    | '"' :: '"' :: '"' :: r => manyBasic? (r.length + 1) (dropNewline r)
    | '\'' :: '\'' :: '\'' :: r => manyLiteral? (dropNewline r)
    | '"' :: r => basic? r
    | '\'' :: r => literal? r
    | _ => none
  found.map fun (cs, rest) => (String.ofList cs, rest)

/-- Digits of a class with single underscores between them, without these. -/
def digitRun? (isDigit : Char → Bool) : List Char → Option (List Char × List Char)
  | [] => none
  | c :: s =>
    if !isDigit c then none
    else match s with
      | '_' :: r => (digitRun? isDigit r).map fun (ds, rest) => (c :: ds, rest)
      | d :: r =>
        if isDigit d then (digitRun? isDigit (d :: r)).map fun (ds, rest) => (c :: ds, rest)
        else some ([c], d :: r)
      | [] => some ([c], [])

/-- A whole decimal number without its sign; a zero stands alone. -/
def decimalRun? (s : List Char) : Option (List Char × List Char) :=
  match s with
  | '0' :: r => some (['0'], r)
  | _ => digitRun? Char.isDigit s

/-- A number of 64 bits in two's complement. -/
def within64? (n : Int) : Option Int :=
  if -0x8000000000000000 ≤ n ∧ n < 0x8000000000000000 then some n else none

def inBase (base : Nat) (ds : List Char) : Nat :=
  ds.foldl (fun n c => base * n + (hexValue? c).getD 0) 0

def integer? (s : List Char) : Option (Int × List Char) :=
  match s with
  | '0' :: 'x' :: r => do
    let (ds, rest) ← digitRun? (fun c => (hexValue? c).isSome) r
    some (← within64? (inBase 16 ds), rest)
  | '0' :: 'o' :: r => do
    let (ds, rest) ← digitRun? (fun c => '0' ≤ c && c ≤ '7') r
    some (← within64? (inBase 8 ds), rest)
  | '0' :: 'b' :: r => do
    let (ds, rest) ← digitRun? (fun c => c = '0' || c = '1') r
    some (← within64? (inBase 2 ds), rest)
  | _ => do
    let (negative, r) := Number.sign s
    let (ds, rest) ← decimalRun? r
    let n : Int := Number.digitsValue ds
    some (← within64? (if negative then -n else n), rest)

/-- The exponent of a float: its digits may begin with zeros. -/
def exponentPart? : List Char → Option (Int × List Char)
  | c :: s => do
    if c ≠ 'e' ∧ c ≠ 'E' then none
    let (negative, r) := Number.sign s
    let (ds, rest) ← digitRun? Char.isDigit r
    let n : Int := Number.digitsValue ds
    some (if negative then -n else n, rest)
  | [] => none

/-- A float: a whole part with a fraction, an exponent or both, or a name. A
    number beyond the greatest one is refused. -/
def float? (s : List Char) : Option (Double × List Char) := do
  let (negative, r) := Number.sign s
  let signed (x : Double) : Double := if negative then -x else x
  match r with
  | 'i' :: 'n' :: 'f' :: rest => some (signed Double.infinity, rest)
  | 'n' :: 'a' :: 'n' :: rest => some (signed Double.nan, rest)
  | _ =>
    let (whole, r) ← decimalRun? r
    let (fraction, e, rest) ← match r with
      | '.' :: r => do
        let (fraction, r) ← digitRun? Char.isDigit r
        match exponentPart? r with
        | some (e, rest) => some (fraction, e, rest)
        | none => some (fraction, 0, r)
      | r => (exponentPart? r).map fun (e, rest) => ([], e, rest)
    let x := signed (Double.ofDecimal (Number.digitsValue (whole ++ fraction))
      (e - fraction.length))
    if x = Double.infinity then none else some (x, rest)

/-- Exactly `n` digits as a number. -/
def fixed? (n : Nat) (s : List Char) : Option (Nat × List Char) :=
  let ds := s.take n
  if ds.length = n ∧ ds.all Char.isDigit then some (Number.digitsValue ds, s.drop n) else none

def expect? (c : Char) : List Char → Option (List Char)
  | d :: r => if c = d then some r else none
  | [] => none

def date? (s : List Char) : Option (Date × List Char) := do
  let (year, r) ← fixed? 4 s
  let (month, r) ← fixed? 2 (← expect? '-' r)
  let (day, r) ← fixed? 2 (← expect? '-' r)
  let d : Date := ⟨year, month, day⟩
  if d.Valid then some (d, r) else none

/-- The digits of a fraction of a second: at most nine, without zeros at the end. -/
def secondFraction (ds : List Char) : List Char :=
  match ((ds.take 9).reverse.dropWhile (· = '0')).reverse with
  | [] => []
  | ds => '.' :: ds

def time? (s : List Char) : Option (String × List Char) := do
  let (hour, r) ← fixed? 2 s
  let (minute, r) ← fixed? 2 (← expect? ':' r)
  let (second, r) ← fixed? 2 (← expect? ':' r)
  if 24 ≤ hour ∨ 60 ≤ minute ∨ 61 ≤ second then none
  let (fraction, r) ← match r with
    | '.' :: r =>
      let ds := r.takeWhile Char.isDigit
      if ds = [] then none else some (secondFraction ds, r.dropWhile Char.isDigit)
    | r => some ([], r)
  some (Date.padded 2 hour ++ ":" ++ Date.padded 2 minute ++ ":" ++ Date.padded 2 second
    ++ String.ofList fraction, r)

def zone? : List Char → Option (String × List Char)
  | 'Z' :: r | 'z' :: r => some ("Z", r)
  | c :: r => do
    if c ≠ '+' ∧ c ≠ '-' then none
    let (hour, r) ← fixed? 2 r
    let (minute, r) ← fixed? 2 (← expect? ':' r)
    if 24 ≤ hour ∨ 60 ≤ minute then none
    let sign := if c = '-' ∧ (hour ≠ 0 ∨ minute ≠ 0) then "-" else "+"
    some (sign ++ Date.padded 2 hour ++ ":" ++ Date.padded 2 minute, r)
  | [] => none

/-- A date, a date with time and perhaps a zone, or a time, in normal form. -/
def datetime? (s : List Char) : Option (String × List Char) :=
  match date? s with
  | none => time? s
  | some (d, r) =>
    let time := match r with
      | c :: r' =>
        if c = 'T' || c = 't' then time? r'
        else if c = ' ' && (fixed? 2 r').isSome then time? r'
        else none
      | [] => none
    match time with
    | none => some (d.text, r)
    | some (t, r) =>
      match zone? r with
      | some (z, r) => some (d.text ++ "T" ++ t ++ z, r)
      | none => some (d.text ++ "T" ++ t, r)

end NoteAssistant.Toml
