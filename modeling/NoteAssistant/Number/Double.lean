import NoteAssistant.Number.Single

/-! # 64-bit floating-point numbers -/

namespace NoteAssistant

/-- A 64-bit floating-point number, as its bit pattern. -/
structure Double where
  bits : UInt64
  deriving DecidableEq, Repr, Inhabited

namespace Double

open Number (Format)

def ofPattern (n : Nat) : Double := ⟨n.toUInt64⟩

def pattern (x : Double) : Nat := x.bits.toNat

def isNan (x : Double) : Bool := Format.double.isNan x.pattern

def isFinite (x : Double) : Bool := Format.double.isFinite x.pattern

def isZero (x : Double) : Bool := Format.double.magnitude x.pattern = 0

def add (x y : Double) : Double := ofPattern (Format.double.add x.pattern y.pattern)
def sub (x y : Double) : Double := ofPattern (Format.double.sub x.pattern y.pattern)
def mul (x y : Double) : Double := ofPattern (Format.double.mul x.pattern y.pattern)
def div (x y : Double) : Double := ofPattern (Format.double.div x.pattern y.pattern)
def neg (x : Double) : Double := ofPattern (Format.double.negate x.pattern)

def ofNat (n : Nat) : Double := ofPattern (Format.double.ofNat n)

/-- The number nearest to `digits * 10 ^ e`. -/
def ofDecimal (digits : Nat) (e : Int) : Double := ofPattern (Format.double.ofDecimal digits e)

def infinity : Double := ofPattern Format.double.infinity
def nan : Double := ofPattern Format.double.nan

instance : Add Double := ⟨add⟩
instance : Sub Double := ⟨sub⟩
instance : Mul Double := ⟨mul⟩
instance : Div Double := ⟨div⟩
instance : Neg Double := ⟨neg⟩

/-- Numerically less; never with NaN. -/
def lt (x y : Double) : Bool := Format.double.lt x.pattern y.pattern

/-- Numerically at most; never with NaN. -/
def le (x y : Double) : Bool := Format.double.le x.pattern y.pattern

/-- The nearest number of 32 bits. -/
def toSingle (x : Double) : Single :=
  .ofPattern (Format.double.convert Format.single x.pattern)

end Double

end NoteAssistant
