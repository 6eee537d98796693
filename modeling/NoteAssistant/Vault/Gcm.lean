import NoteAssistant.Vault.Aes

/-! # Galois counter mode

Authenticated encryption without associated data over a cipher of 16-byte blocks.
The text is combined with a key stream; a tag over the result shows every change.
The mode is the same for every block cipher.
-/

namespace NoteAssistant.Gcm

open Aes (Block)

abbrev BlockCipher := Block → Block

/-- A nonce of twelve bytes. A tag has sixteen. -/
structure Nonce where
  bytes : List UInt8
  length_bytes : bytes.length = 12

/-- The block with a nonce and a counter. -/
def counterBlock (nonce : Nonce) (counter : UInt32) : Block :=
  match Aes.columns nonce.bytes with
  | [a, b, c] => ⟨a, b, c, counter⟩
  | _ => ⟨0, 0, 0, counter⟩

/-- The key stream of `n` blocks from a counter on. -/
def keyStream (cipher : BlockCipher) (nonce : Nonce) (counter : UInt32) : Nat → List UInt8
  | 0 => []
  | n + 1 => (cipher (counterBlock nonce counter)).bytes
      ++ keyStream cipher nonce (counter + 1) n

/-- A text combined with its key stream; counter 1 is kept for the tag. -/
def crypt (cipher : BlockCipher) (nonce : Nonce) (text : List UInt8) : List UInt8 :=
  List.zipWith (· ^^^ ·) text (keyStream cipher nonce 2 ((text.length + 15) / 16))

/-! ## The tag -/

/-- A block as an element of the field of 128 bits. The first bit of a block is the
    coefficient of 1, the last one that of the highest power. -/
def element (b : Block) : BitVec 128 :=
  b.c0.toBitVec ++ b.c1.toBitVec ++ b.c2.toBitVec ++ b.c3.toBitVec

def ofElement (x : BitVec 128) : Block :=
  ⟨.ofBitVec (x.extractLsb' 96 32), .ofBitVec (x.extractLsb' 64 32),
    .ofBitVec (x.extractLsb' 32 32), .ofBitVec (x.extractLsb' 0 32)⟩

/-- The polynomial 1 + x + x² + x⁷, by which the product is reduced. -/
def reduction : BitVec 128 := 0xE1#128 <<< 120

/-- Multiplication by the variable. -/
def shift (v : BitVec 128) : BitVec 128 :=
  if v.getLsbD 0 then v >>> 1 ^^^ reduction else v >>> 1

/-- The product of two elements, by the lowest `n` bits of the first one. -/
def mulBits (x v : BitVec 128) : Nat → BitVec 128
  | 0 => 0
  | n + 1 => (if x.getLsbD n then v else 0) ^^^ mulBits x (shift v) n

def mul (x y : BitVec 128) : BitVec 128 := mulBits x y 128

/-- A byte string as blocks, the last one filled up with zeros. -/
def padded (text : List UInt8) : List Block :=
  Aes.blocks (Aes.columns (text ++ List.replicate ((16 - text.length % 16) % 16) 0))

/-- The block with the lengths in bits: of the associated data, which is empty, and
    of the text. -/
def lengths (text : List UInt8) : BitVec 128 := BitVec.ofNat 128 (8 * text.length)

/-- The hash of a text under the hash key. -/
def hash (key : BitVec 128) (text : List UInt8) : BitVec 128 :=
  let absorb := fun acc x => mul (acc ^^^ x) key
  absorb (((padded text).map element).foldl absorb 0) (lengths text)

def tag (cipher : BlockCipher) (nonce : Nonce) (encrypted : List UInt8) : List UInt8 :=
  let digest := ofElement (hash (element (cipher Block.zero)) encrypted)
  (digest.xor (cipher (counterBlock nonce 1))).bytes

/-- Encrypts a text: the result is followed by its tag. -/
def encrypt (cipher : BlockCipher) (nonce : Nonce) (text : List UInt8) : List UInt8 :=
  let encrypted := crypt cipher nonce text
  encrypted ++ tag cipher nonce encrypted

/-- Decrypts what `encrypt` made; anything else has no text. -/
def decrypt? (cipher : BlockCipher) (nonce : Nonce) (sealed : List UInt8) :
    Option (List UInt8) :=
  let length := sealed.length - 16
  let encrypted := sealed.take length
  if sealed.drop length = tag cipher nonce encrypted then some (crypt cipher nonce encrypted)
  else none

end NoteAssistant.Gcm
