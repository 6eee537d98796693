import NoteAssistant.Number.Double

/-! # Shortest decimal text

The text of a binary number has the fewest digits that read back to the same
number, and of those the nearest ones. How they are laid out is a separate
decision, held in a `Layout`.
-/

namespace NoteAssistant.Number

/-- `digits * 10 ^ exponent` -/
structure Decimal where
  digits : Nat
  exponent : Int
  deriving DecidableEq, Repr

/-- Which of two decimals equally near to a number is taken. -/
inductive Tie where
  | toEven
  | upward
  deriving DecidableEq, Repr

/-- A positive number `significand * 2 ^ exponent` with its distance to the
    number below it. -/
structure Dyadic where
  significand : Nat
  exponent : Int
  /-- The gap below is half the gap above. -/
  narrowBelow : Bool

def Format.dyadic (f : Format) (bits : Nat) : Dyadic where
  significand := f.significand bits
  exponent := f.exponent bits
  narrowBelow :=
    f.magnitude bits % f.hiddenBit = 0 && 2 ≤ f.magnitude bits / f.hiddenBit

/-- Compare `a * 10 ^ i` with `n * 2 ^ j`. -/
def compareScaled (a : Nat) (i : Int) (n : Nat) (j : Int) : Ordering :=
  compare (a * Nat.pow 10 i.toNat * Nat.pow 2 (-j).toNat)
    (n * Nat.pow 2 j.toNat * Nat.pow 10 (-i).toNat)

/-- The decimal lies among the reals that round to the number. -/
def Dyadic.readsBack (x : Dyadic) (d : Decimal) : Bool :=
  let below := if x.narrowBelow then 4 * x.significand - 1 else 4 * x.significand - 2
  let low := compareScaled d.digits d.exponent below (x.exponent - 2)
  let high := compareScaled d.digits d.exponent (4 * x.significand + 2) (x.exponent - 2)
  let ends := x.significand % 2 = 0
  (low = .gt || (ends && low = .eq)) && (high = .lt || (ends && high = .eq))

/-- The largest decimal on the grid of `10 ^ g` that is at most the number. -/
def Dyadic.floorOn (x : Dyadic) (g : Int) : Nat :=
  (x.significand * Nat.pow 2 x.exponent.toNat * Nat.pow 10 (-g).toNat) /
    (Nat.pow 2 (-x.exponent).toNat * Nat.pow 10 g.toNat)

/-- The number of digits before the decimal point: the least `k` with the number
    below `10 ^ k`. -/
def Dyadic.pointPlace (x : Dyadic) : Int :=
  let estimate := (((x.significand.log2 : Int) + x.exponent) * 30103).fdiv 100000
  let below (k : Int) : Bool := compareScaled 1 k x.significand x.exponent = .gt
  if below estimate then estimate
  else if below (estimate + 1) then estimate + 1
  else estimate + 2

/-- The decimal of a grid that reads back, the nearer one if both neighbours do. -/
def Dyadic.onGrid? (x : Dyadic) (tie : Tie) (g : Int) : Option Decimal :=
  let d := x.floorOn g
  let lower : Decimal := ⟨d, g⟩
  let upper : Decimal := ⟨d + 1, g⟩
  match x.readsBack lower, x.readsBack upper with
  | false, false => none
  | true, false => some lower
  | false, true => some upper
  | true, true =>
    match compareScaled (2 * d + 1) g (2 * x.significand) x.exponent with
    | .gt => some lower
    | .lt => some upper
    | .eq => if tie = .toEven && d % 2 = 0 then some lower else some upper

/-- The decimal without the zeros at its end; `fuel` bounds their number. -/
def Decimal.strip : Nat → Decimal → Decimal
  | 0, d => d
  | fuel + 1, d =>
    if d.digits ≠ 0 ∧ d.digits % 10 = 0 then strip fuel ⟨d.digits / 10, d.exponent + 1⟩ else d

/-- The fewest digits that read back to a positive number. -/
def Dyadic.shortest (x : Dyadic) (tie : Tie) : Decimal :=
  let k := x.pointPlace
  let found := (List.range 17).findSome? fun (n : Nat) => x.onGrid? tie (k - (n + 1))
  (found.getD ⟨x.floorOn (k - 17), k - 17⟩).strip 20

/-- How the digits of a number are laid out. -/
structure Layout where
  tie : Tie
  /-- The point stands without an exponent if its place, counted from before the
      first digit, is above the first bound and at most the second. -/
  plain : Option (Int × Int)
  /-- A whole number is written with `.0`. -/
  pointZero : Bool

/-- The text of `digits` with the point after `place` of them. An exponent has its
    sign, also if it is positive. -/
def Layout.place (l : Layout) (digits : List Char) (place : Int) : List Char :=
  let n : Int := digits.length
  let positional : Bool := match l.plain with
    | none => true
    | some (low, high) => low < place && place ≤ high
  if positional then
    if place ≤ 0 then '0' :: '.' :: List.replicate (-place).toNat '0' ++ digits
    else if n ≤ place then
      digits ++ List.replicate (place - n).toNat '0' ++ (if l.pointZero then ['.', '0'] else [])
    else digits.take place.toNat ++ '.' :: digits.drop place.toNat
  else
    let sign := if place < 1 then '-' else '+'
    let exponent := 'e' :: sign :: Nat.toDigits 10 (place - 1).natAbs
    match digits with
    | [d] => d :: exponent
    | d :: ds => d :: '.' :: ds ++ exponent
    | [] => exponent

def Layout.render (l : Layout) (f : Format) (bits : Nat) : String :=
  let sign := if f.isNegative bits then ['-'] else []
  if f.magnitude bits = 0 then
    String.ofList (sign ++ '0' :: (if l.pointZero then ['.', '0'] else []))
  else
    let d := (f.dyadic bits).shortest l.tie
    let digits := Nat.toDigits 10 d.digits
    String.ofList (sign ++ l.place digits (d.exponent + digits.length))

/-- Numbers inside messages: never an exponent, a whole number without point. -/
def Layout.message : Layout where
  tie := .upward
  plain := none
  pointZero := false

/-- 32-bit numbers inside JSON: always a point or an exponent. -/
def Layout.json : Layout where
  tie := .toEven
  plain := some (-6, 13)
  pointZero := true

/-- The text of any number inside a message. -/
def messageText (f : Format) (bits : Nat) : String :=
  if f.isNan bits then "NaN"
  else if f.isInfinite bits then if f.isNegative bits then "-inf" else "inf"
  else Layout.message.render f bits

end NoteAssistant.Number

namespace NoteAssistant

/-- The number as messages show it. -/
def Single.text (x : Single) : String := Number.messageText .single x.pattern

/-- The number as messages show it. -/
def Double.text (x : Double) : String := Number.messageText .double x.pattern

/-- The number as JSON shows it; what is not finite is `null`. -/
def Single.json (x : Single) : String :=
  if x.isFinite then Number.Layout.json.render .single x.pattern else "null"

end NoteAssistant
