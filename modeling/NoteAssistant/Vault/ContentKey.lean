import NoteAssistant.Config.Model
import NoteAssistant.Fault
import NoteAssistant.Text.Blank
import NoteAssistant.Text.Hex
import NoteAssistant.Text.Utf8
import NoteAssistant.Vault.Gcm

/-! # Content keys

Encrypted notes are kept as payloads: a nonce, the encrypted text and its tag. The
key is configured as hexadecimal digits.
-/

namespace NoteAssistant

/-- A key of 32 bytes. -/
structure ContentKey where
  bytes : List UInt8
  length_bytes : bytes.length = 32

namespace ContentKey

/-- All that is shown of a key. -/
def redacted : String := "ContentCipher \x7b key: \"[REDACTED]\" \x7d"

/-- The key written as 64 hexadecimal digits, with white space around them. -/
def ofHex (text : String) : Except Fault ContentKey :=
  match Text.Hex.decode (Text.Utf8.encode (Text.trim text.toList)) with
  | .error e => .error (.config ("content key is not valid hex: " ++ e.message))
  | .ok bytes =>
    if h : bytes.length = 32 then .ok ⟨bytes, h⟩
    else .error (.config s!"content key must be 32 bytes, got {bytes.length}")

/-- The configured key, or else the one in the configured environment variable, if
    that is not blank. -/
def ofConfig (c : VaultConfig) (lookup : String → Option String) :
    Except Fault (Option ContentKey) :=
  match c.key with
  | some key => (ofHex key).map some
  | none =>
    match lookup c.keyEnv with
    | some value => if isBlankText value then .ok none else (ofHex value).map some
    | none => .ok none

def cipher (k : ContentKey) : Gcm.BlockCipher := Aes.encrypt (Aes.roundKeys k.bytes)

def encrypt (k : ContentKey) (nonce : Gcm.Nonce) (text : List UInt8) : List UInt8 :=
  nonce.bytes ++ Gcm.encrypt k.cipher nonce text

def shortPayload (length : Nat) : Fault :=
  .decrypt s!"payload of {length} bytes is shorter than nonce and tag"

def corrupted : Fault :=
  .decrypt "AES-256-GCM decryption failed -- wrong key or corrupted data"

def decrypt (k : ContentKey) (payload : List UInt8) : Except Fault (List UInt8) :=
  if h : payload.length < 28 then .error (shortPayload payload.length)
  else
    let nonce : Gcm.Nonce := ⟨payload.take 12, by rw [List.length_take]; omega⟩
    match Gcm.decrypt? k.cipher nonce (payload.drop 12) with
    | some text => .ok text
    | none => .error corrupted

end ContentKey

end NoteAssistant
