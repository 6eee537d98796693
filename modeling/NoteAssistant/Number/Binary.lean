/-! # Binary floating-point formats

A number of a binary interchange format is handled as its bit pattern. Every
operation computes the exact rational result and rounds it once, to the nearest
number of the format, a tie to the even pattern.
-/

namespace NoteAssistant.Number

/-- The widths of the fraction and exponent fields of an interchange format. -/
structure Format where
  fractionBits : Nat
  exponentBits : Nat

namespace Format

def single : Format := ⟨23, 8⟩

def double : Format := ⟨52, 11⟩

/-- Exponent of the last fraction bit of the least numbers. -/
def minExponent (f : Format) : Int :=
  2 - Nat.pow 2 (f.exponentBits - 1) - f.fractionBits

/-- The weight of the bit above the fraction, which patterns leave out. -/
def hiddenBit (f : Format) : Nat := Nat.pow 2 f.fractionBits

def infinity (f : Format) : Nat := (Nat.pow 2 f.exponentBits - 1) * f.hiddenBit

/-- The weight of the sign bit. -/
def signBit (f : Format) : Nat := Nat.pow 2 (f.fractionBits + f.exponentBits)

def isNegative (f : Format) (bits : Nat) : Bool := f.signBit ≤ bits

/-- The pattern without its sign bit. -/
def magnitude (f : Format) (bits : Nat) : Nat := bits % f.signBit

def isNan (f : Format) (bits : Nat) : Bool := f.infinity < f.magnitude bits

def isInfinite (f : Format) (bits : Nat) : Bool := f.magnitude bits = f.infinity

def isFinite (f : Format) (bits : Nat) : Bool := f.magnitude bits < f.infinity

def signed (f : Format) (negative : Bool) (magnitude : Nat) : Nat :=
  if negative then f.signBit + magnitude else magnitude

/-- The quiet NaN that operations give. -/
def nan (f : Format) : Nat := f.infinity + Nat.pow 2 (f.fractionBits - 1)

/-- The number with the other sign. -/
def negate (f : Format) (bits : Nat) : Nat :=
  f.signed (!f.isNegative bits) (f.magnitude bits)

/-- A finite magnitude is `significand * 2 ^ exponent`. -/
def significand (f : Format) (bits : Nat) : Nat :=
  let m := f.magnitude bits
  if m < f.hiddenBit then m else m % f.hiddenBit + f.hiddenBit

def exponent (f : Format) (bits : Nat) : Int :=
  f.minExponent + ((f.magnitude bits / f.hiddenBit - 1 : Nat) : Int)

/-- The quotient rounded to the nearest integer, a tie to the even one. -/
def roundDiv (num den : Nat) : Nat :=
  let q := num / den
  match compare (2 * (num % den)) den with
  | .lt => q
  | .gt => q + 1
  | .eq => if q % 2 = 0 then q else q + 1

/-- The binary exponent of a positive quotient: `2 ^ e ≤ num / den < 2 ^ (e + 1)`. -/
def quotientLog (num den : Nat) : Int :=
  let e : Int := (num.log2 : Int) - (den.log2 : Int)
  if den * Nat.pow 2 e.toNat ≤ num * Nat.pow 2 (-e).toNat then e else e - 1

/-- The magnitude nearest to `num / den`; beyond the greatest number, infinity. -/
def nearest (f : Format) (num den : Nat) : Nat :=
  if num = 0 || den = 0 then 0
  else
    let q := max (quotientLog num den - f.fractionBits) f.minExponent
    let m := roundDiv (num * Nat.pow 2 (-q).toNat) (den * Nat.pow 2 q.toNat)
    min ((q - f.minExponent).toNat * f.hiddenBit + m) f.infinity

/-- The magnitude nearest to `num / den * 2 ^ e`. -/
def nearestScaled (f : Format) (num den : Nat) (e : Int) : Nat :=
  f.nearest (num * Nat.pow 2 e.toNat) (den * Nat.pow 2 (-e).toNat)

/-- The magnitude nearest to `digits * 10 ^ e`. -/
def ofDecimal (f : Format) (digits : Nat) (e : Int) : Nat :=
  if digits = 0 then 0
  else if e > 400 then f.infinity
  else if e + digits.log2 < -1500 then 0
  else f.nearest (digits * Nat.pow 10 e.toNat) (Nat.pow 10 (-e).toNat)

def ofNat (f : Format) (n : Nat) : Nat := f.nearest n 1

/-- The number of format `g` nearest to a number of format `f`. -/
def convert (f g : Format) (bits : Nat) : Nat :=
  let negative := f.isNegative bits
  if f.isNan bits then g.signed negative g.nan
  else if f.isInfinite bits then g.signed negative g.infinity
  else g.signed negative (g.nearestScaled (f.significand bits) 1 (f.exponent bits))

def add (f : Format) (a b : Nat) : Nat :=
  if f.isNan a || f.isNan b then f.nan
  else if f.isInfinite a then
    if f.isInfinite b && f.isNegative a != f.isNegative b then f.nan else a
  else if f.isInfinite b then b
  else
    let e := min (f.exponent a) (f.exponent b)
    let part (x : Nat) : Int :=
      let m : Int := (f.significand x * Nat.pow 2 (f.exponent x - e).toNat : Nat)
      if f.isNegative x then -m else m
    let sum := part a + part b
    if sum = 0 then f.signed (f.isNegative a && f.isNegative b) 0
    else f.signed (sum < 0) (f.nearestScaled sum.natAbs 1 e)

def sub (f : Format) (a b : Nat) : Nat := f.add a (f.negate b)

def mul (f : Format) (a b : Nat) : Nat :=
  let negative := f.isNegative a != f.isNegative b
  if f.isNan a || f.isNan b then f.nan
  else if f.isInfinite a || f.isInfinite b then
    if f.magnitude a = 0 || f.magnitude b = 0 then f.nan else f.signed negative f.infinity
  else
    f.signed negative
      (f.nearestScaled (f.significand a * f.significand b) 1 (f.exponent a + f.exponent b))

def div (f : Format) (a b : Nat) : Nat :=
  let negative := f.isNegative a != f.isNegative b
  if f.isNan a || f.isNan b then f.nan
  else if f.isInfinite a then if f.isInfinite b then f.nan else f.signed negative f.infinity
  else if f.isInfinite b then f.signed negative 0
  else if f.magnitude b = 0 then
    if f.magnitude a = 0 then f.nan else f.signed negative f.infinity
  else
    f.signed negative
      (f.nearestScaled (f.significand a) (f.significand b) (f.exponent a - f.exponent b))

/-- The place of a number that is not NaN in the numeric order; both zeros are 0. -/
def place (f : Format) (bits : Nat) : Int :=
  if f.isNegative bits then -(f.magnitude bits : Int) else f.magnitude bits

def lt (f : Format) (a b : Nat) : Bool :=
  !f.isNan a && !f.isNan b && f.place a < f.place b

def le (f : Format) (a b : Nat) : Bool :=
  !f.isNan a && !f.isNan b && f.place a ≤ f.place b

end Format

end NoteAssistant.Number
