/-! # UTF-8

Bytes are read one at a time by an automaton. It reports each character as it
is completed, and one failure for each longest beginning of a sequence that no
character continues.
-/

namespace NoteAssistant.Text.Utf8

/-- Where the reader stands in a sequence. -/
inductive State where
  /-- Before the first byte of a character. -/
  | ready
  /-- `left` more bytes are due, the next one within `lo` and `hi`; `acc` holds
      the bits read so far. -/
  | inside (left : Nat) (lo hi : UInt8) (acc : Nat)
  deriving DecidableEq, Repr

/-- The outcome of a first byte: a character, a sequence begun, or a failure. -/
def first (b : UInt8) : List (Option Char) × State :=
  let n := b.toNat
  if n < 0x80 then ([some (Char.ofNat n)], .ready)
  else if 0xC2 ≤ n && n ≤ 0xDF then ([], .inside 1 0x80 0xBF (n - 0xC0))
  else if n = 0xE0 then ([], .inside 2 0xA0 0xBF 0)
  else if n = 0xED then ([], .inside 2 0x80 0x9F 0xD)
  else if 0xE1 ≤ n && n ≤ 0xEF then ([], .inside 2 0x80 0xBF (n - 0xE0))
  else if n = 0xF0 then ([], .inside 3 0x90 0xBF 0)
  else if 0xF1 ≤ n && n ≤ 0xF3 then ([], .inside 3 0x80 0xBF (n - 0xF0))
  else if n = 0xF4 then ([], .inside 3 0x80 0x8F 4)
  else ([none], .ready)

/-- One byte: a byte out of range ends the sequence begun as a failure and is
    then read as a first byte. -/
def step : State → UInt8 → List (Option Char) × State
  | .ready, b => first b
  | .inside left lo hi acc, b =>
    if lo ≤ b && b ≤ hi then
      let bits := acc * 64 + (b.toNat - 0x80)
      if left ≤ 1 then ([some (Char.ofNat bits)], .ready)
      else ([], .inside (left - 1) 0x80 0xBF bits)
    else
      let (chars, state) := first b
      (none :: chars, state)

/-- The characters and failures of a run of bytes, and the state after it. -/
def scan (state : State) : List UInt8 → List (Option Char) × State
  | [] => ([], state)
  | b :: bytes =>
    let (chars, mid) := step state b
    let (rest, last) := scan mid bytes
    (chars ++ rest, last)

/-- The characters of a byte string that holds nothing but whole characters. -/
def decode? (bytes : List UInt8) : Option (List Char) :=
  match scan .ready bytes with
  | (chars, .ready) => chars.mapM id
  | _ => none

/-- The characters of a byte string, with U+FFFD for each failure. -/
def decodeLossy (bytes : List UInt8) : List Char :=
  let (chars, state) := scan .ready bytes
  chars.map (·.getD '\uFFFD') ++ (if state = .ready then [] else ['\uFFFD'])

def encode (s : List Char) : List UInt8 := s.flatMap String.utf8EncodeChar

end NoteAssistant.Text.Utf8
