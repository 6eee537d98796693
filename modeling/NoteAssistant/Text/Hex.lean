import NoteAssistant.Text.Quoted

/-! # Bytes as pairs of hexadecimal digits -/

namespace NoteAssistant.Text.Hex

/-- Why a text is not a sequence of pairs of hexadecimal digits. -/
inductive Fault where
  | oddLength
  | badDigit (byte : UInt8) (position : Nat)
  deriving DecidableEq, Repr

def Fault.message : Fault → String
  | .oddLength => "Odd number of digits"
  | .badDigit byte position =>
    s!"Invalid character {quotedChar (Char.ofNat byte.toNat)} at position {position}"

/-- The value of an ASCII digit of base sixteen, in either case. -/
def digit? (b : UInt8) : Option UInt8 :=
  if 0x30 ≤ b && b ≤ 0x39 then some (b - 0x30)
  else if 0x61 ≤ b && b ≤ 0x66 then some (b - 0x57)
  else if 0x41 ≤ b && b ≤ 0x46 then some (b - 0x37)
  else none

/-- The lower-case digit of a value below sixteen. -/
def digit (v : UInt8) : Char := Char.ofNat (if v < 10 then 0x30 + v.toNat else 0x57 + v.toNat)

/-- The bytes of a sequence of digit pairs that starts at `position`. -/
def pairs (position : Nat) : List UInt8 → Except Fault (List UInt8)
  | [] => .ok []
  | [_] => .error .oddLength
  | a :: b :: rest =>
    match digit? a, digit? b with
    | none, _ => .error (.badDigit a position)
    | some _, none => .error (.badDigit b (position + 1))
    | some hi, some lo =>
      match pairs (position + 2) rest with
      | .error e => .error e
      | .ok bytes => .ok ((hi * 16 + lo) :: bytes)

/-- The bytes a text denotes. An odd length is reported before any bad digit. -/
def decode (text : List UInt8) : Except Fault (List UInt8) :=
  if text.length % 2 = 1 then .error .oddLength else pairs 0 text

/-- The lower-case digits of a byte string. -/
def encode (bytes : List UInt8) : List Char :=
  bytes.flatMap fun b => [digit (b / 16), digit (b % 16)]

end NoteAssistant.Text.Hex
