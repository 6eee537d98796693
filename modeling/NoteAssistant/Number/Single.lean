import NoteAssistant.Number.Binary

/-! # Scores and thresholds

Numbers of the 32-bit format. They have two orders: the numeric one, in which
NaN compares to nothing, and a total one over all bit patterns.
-/

namespace NoteAssistant

/-- A 32-bit floating-point number, as its bit pattern. -/
structure Single where
  bits : UInt32
  deriving DecidableEq, Repr, Inhabited

namespace Single

open Number (Format)

def ofPattern (n : Nat) : Single := ⟨n.toUInt32⟩

def pattern (x : Single) : Nat := x.bits.toNat

def isNan (x : Single) : Bool := Format.single.isNan x.pattern

def isFinite (x : Single) : Bool := Format.single.isFinite x.pattern

def sub (x y : Single) : Single := ofPattern (Format.single.sub x.pattern y.pattern)

def mul (x y : Single) : Single := ofPattern (Format.single.mul x.pattern y.pattern)

def ofNat (n : Nat) : Single := ofPattern (Format.single.ofNat n)

/-- The number nearest to `digits * 10 ^ e`. -/
def ofDecimal (digits : Nat) (e : Int) : Single := ofPattern (Format.single.ofDecimal digits e)

instance : Sub Single := ⟨sub⟩
instance : Mul Single := ⟨mul⟩

/-- Place in the numeric order, for numbers that are not NaN. -/
def place (x : Single) : Int := Format.single.place x.pattern

/-- Numerically less; never with NaN. -/
def lt (x y : Single) : Bool := Format.single.lt x.pattern y.pattern

/-- Numerically at most; never with NaN. -/
def le (x y : Single) : Bool := Format.single.le x.pattern y.pattern

/-- Place in the total order: negative NaN, negative infinity, …, -0, 0, …,
    infinity, NaN. -/
def rank (x : Single) : Int :=
  let m : Int := Format.single.magnitude x.pattern
  if Format.single.isNegative x.pattern then -m - 1 else m

def zero : Single := ⟨0⟩
def one : Single := ⟨0x3F800000⟩

end Single

end NoteAssistant
