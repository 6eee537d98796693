/-! # The AES-256 block cipher

The cipher of FIPS 197 with a key of 256 bits, in the direction of encryption, on
blocks of four 32-bit columns.
-/

namespace NoteAssistant.Aes

/-- Sixteen bytes as four columns; the first byte of a column is its highest one. -/
structure Block where
  c0 : UInt32
  c1 : UInt32
  c2 : UInt32
  c3 : UInt32
  deriving DecidableEq, Repr

def column (a b c d : UInt8) : UInt32 :=
  a.toUInt32 <<< 24 ||| b.toUInt32 <<< 16 ||| c.toUInt32 <<< 8 ||| d.toUInt32

def byte0 (w : UInt32) : UInt8 := (w >>> 24).toUInt8
def byte1 (w : UInt32) : UInt8 := (w >>> 16).toUInt8
def byte2 (w : UInt32) : UInt8 := (w >>> 8).toUInt8
def byte3 (w : UInt32) : UInt8 := w.toUInt8

def columnBytes (w : UInt32) : List UInt8 := [byte0 w, byte1 w, byte2 w, byte3 w]

/-- The columns of a byte string; a rest of fewer than four bytes is dropped. -/
def columns : List UInt8 → List UInt32
  | a :: b :: c :: d :: rest => column a b c d :: columns rest
  | _ => []

namespace Block

def zero : Block := ⟨0, 0, 0, 0⟩

def xor (a b : Block) : Block :=
  ⟨a.c0 ^^^ b.c0, a.c1 ^^^ b.c1, a.c2 ^^^ b.c2, a.c3 ^^^ b.c3⟩

/-- The block of the first four columns; columns that are not there are zero. -/
def ofColumns : List UInt32 → Block
  | a :: b :: c :: d :: _ => ⟨a, b, c, d⟩
  | [a, b, c] => ⟨a, b, c, 0⟩
  | [a, b] => ⟨a, b, 0, 0⟩
  | [a] => ⟨a, 0, 0, 0⟩
  | [] => zero

def bytes (b : Block) : List UInt8 :=
  columnBytes b.c0 ++ columnBytes b.c1 ++ columnBytes b.c2 ++ columnBytes b.c3

theorem length_bytes (b : Block) : b.bytes.length = 16 := rfl

end Block

/-! ## The field of bytes -/

/-- Multiplication by the variable modulo x⁸ + x⁴ + x³ + x + 1. -/
def double (b : UInt8) : UInt8 := b <<< 1 ^^^ (if b &&& 0x80 = 0 then 0 else 0x1b)

/-- The product of two bytes, by the lowest `n` bits of the second one. -/
def mulBits (a : UInt8) (b : UInt8) : Nat → UInt8
  | 0 => 0
  | n + 1 => (if b &&& 1 = 0 then 0 else a) ^^^ mulBits (double a) (b >>> 1) n

def mul (a b : UInt8) : UInt8 := mulBits a b 8

/-- The inverse of a byte, which is its power 254; zero for zero. -/
def inverse (a : UInt8) : UInt8 :=
  ((List.range 7).foldl (fun (product, power) _ =>
    let square := mul power power
    (mul product square, square)) ((1, a) : UInt8 × UInt8)).1

def rotated (b : UInt8) (n : UInt8) : UInt8 := b <<< n ||| b >>> (8 - n)

/-- The substitution of one byte: its inverse under an affine map of bits. -/
def substituted (a : UInt8) : UInt8 :=
  let b := inverse a
  b ^^^ rotated b 1 ^^^ rotated b 2 ^^^ rotated b 3 ^^^ rotated b 4 ^^^ 0x63

def box : Array UInt8 := ((List.range 256).map fun n => substituted n.toUInt8).toArray

def sub (b : UInt8) : UInt8 := box.getD b.toNat 0

def subColumn (w : UInt32) : UInt32 :=
  column (sub (byte0 w)) (sub (byte1 w)) (sub (byte2 w)) (sub (byte3 w))

/-! ## Round keys -/

/-- Continues a key schedule, given its last eight columns and the constant of the
    next round; `n` more groups of eight columns are made. -/
def extend (window : List UInt32) (constant : UInt8) : Nat → List UInt32
  | 0 => []
  | n + 1 =>
    match window with
    | [w0, w1, w2, w3, w4, w5, w6, w7] =>
      let v0 := w0 ^^^ subColumn (w7 <<< 8 ||| w7 >>> 24) ^^^ constant.toUInt32 <<< 24
      let v1 := w1 ^^^ v0
      let v2 := w2 ^^^ v1
      let v3 := w3 ^^^ v2
      let v4 := w4 ^^^ subColumn v3
      let v5 := w5 ^^^ v4
      let v6 := w6 ^^^ v5
      let v7 := w7 ^^^ v6
      let next := [v0, v1, v2, v3, v4, v5, v6, v7]
      next ++ extend next (double constant) n
    | _ => []

/-- Columns in groups of four. -/
def blocks : List UInt32 → List Block
  | a :: b :: c :: d :: rest => ⟨a, b, c, d⟩ :: blocks rest
  | _ => []

/-- The fifteen round keys of a key of 32 bytes. -/
def roundKeys (key : List UInt8) : List Block :=
  let ws := columns key
  (blocks (ws ++ extend ws 1 7)).take 15

/-! ## Rounds -/

/-- Substitution and the shift of rows. -/
def shifted (s : Block) : Block :=
  let row (a b c d : UInt32) : UInt32 :=
    column (sub (byte0 a)) (sub (byte1 b)) (sub (byte2 c)) (sub (byte3 d))
  ⟨row s.c0 s.c1 s.c2 s.c3, row s.c1 s.c2 s.c3 s.c0, row s.c2 s.c3 s.c0 s.c1,
    row s.c3 s.c0 s.c1 s.c2⟩

/-- The mix of the bytes of a column. -/
def mixColumn (w : UInt32) : UInt32 :=
  let a := byte0 w
  let b := byte1 w
  let c := byte2 w
  let d := byte3 w
  let all := a ^^^ b ^^^ c ^^^ d
  column (a ^^^ all ^^^ double (a ^^^ b)) (b ^^^ all ^^^ double (b ^^^ c))
    (c ^^^ all ^^^ double (c ^^^ d)) (d ^^^ all ^^^ double (d ^^^ a))

def mixed (s : Block) : Block := ⟨mixColumn s.c0, mixColumn s.c1, mixColumn s.c2, mixColumn s.c3⟩

/-- The rounds after the first key has been added; the last one does not mix. -/
def rounds (s : Block) : List Block → Block
  | [] => s
  | [k] => (shifted s).xor k
  | k :: ks => rounds ((mixed (shifted s)).xor k) ks

/-- The encryption of one block under given round keys. -/
def encrypt : List Block → Block → Block
  | [], s => s
  | k :: ks, s => rounds (s.xor k) ks

end NoteAssistant.Aes
