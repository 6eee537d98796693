import Mathlib.Data.List.Basic
import NoteAssistant.Vault.ContentKey

/-! # Sealed payloads

What opens is what sealing makes. Under a block cipher and a nonce the texts and the sealed
texts belong to each other one to one (`Gcm.decrypt?_eq_some_iff`), whatever the cipher is.
`ContentKey.decrypt_encrypts` says what this means for payloads, which carry their nonce in
front: each opens to its own text only, and nothing else opens.
-/

namespace NoteAssistant

namespace Gcm

theorem Nonce.eq_of_bytes {a b : Nonce} (same : a.bytes = b.bytes) : a = b := by
  cases a
  cases b
  cases same
  rfl

variable (cipher : BlockCipher) (nonce : Nonce)

@[simp] theorem length_keyStream (counter : UInt32) (n : Nat) :
    (keyStream cipher nonce counter n).length = 16 * n := by
  induction n generalizing counter with
  | zero => rfl
  | succ n ih =>
      rw [keyStream, List.length_append, Aes.Block.length_bytes, ih]
      omega

/-- Combining with the same key stream twice changes nothing. -/
theorem zipWith_xor_cancel {text stream : List UInt8} (covered : text.length ≤ stream.length) :
    List.zipWith (· ^^^ ·) (List.zipWith (· ^^^ ·) text stream) stream = text := by
  induction text generalizing stream with
  | nil => rfl
  | cons b text ih =>
      cases stream with
      | nil => simp at covered
      | cons k stream =>
          have rest := ih (Nat.le_of_succ_le_succ covered)
          have first : b ^^^ k ^^^ k = b := by rw [UInt8.xor_assoc, UInt8.xor_self, UInt8.xor_zero]
          rw [List.zipWith_cons_cons, List.zipWith_cons_cons, first, rest]

/-- The key stream reaches to the end of a text, also into a last block that is not full. -/
theorem length_le_keyStream (text : List UInt8) :
    text.length ≤ (keyStream cipher nonce 2 ((text.length + 15) / 16)).length := by
  rw [length_keyStream]
  omega

@[simp] theorem length_crypt (text : List UInt8) :
    (crypt cipher nonce text).length = text.length := by
  have covered := length_le_keyStream cipher nonce text
  rw [crypt, List.length_zipWith]
  omega

theorem crypt_crypt (text : List UInt8) :
    crypt cipher nonce (crypt cipher nonce text) = text := by
  rw [crypt, length_crypt]
  exact zipWith_xor_cancel (length_le_keyStream cipher nonce text)

@[simp] theorem length_tag (encrypted : List UInt8) :
    (tag cipher nonce encrypted).length = 16 :=
  Aes.Block.length_bytes _

@[simp] theorem length_encrypt (text : List UInt8) :
    (encrypt cipher nonce text).length = text.length + 16 := by
  simp [encrypt]

variable {cipher nonce}

/-- What opens to a text is what encryption makes of that text. -/
theorem decrypt?_eq_some_iff {text sealed : List UInt8} :
    decrypt? cipher nonce sealed = some text ↔ sealed = encrypt cipher nonce text := by
  constructor
  · intro opened
    unfold decrypt? at opened
    dsimp only at opened
    split at opened
    case isTrue genuine =>
      obtain rfl := Option.some.inj opened
      rw [encrypt, crypt_crypt, ← genuine, List.take_append_drop]
    case isFalse => cases opened
  · rintro rfl
    have front : (encrypt cipher nonce text).take text.length = crypt cipher nonce text :=
      List.take_left' (length_crypt cipher nonce text)
    have back : (encrypt cipher nonce text).drop text.length =
        tag cipher nonce (crypt cipher nonce text) :=
      List.drop_left' (length_crypt cipher nonce text)
    rw [decrypt?, length_encrypt, Nat.add_sub_cancel, front, back, if_pos rfl, crypt_crypt]

end Gcm

namespace ContentKey

variable {k : ContentKey} {nonce : Gcm.Nonce} {payload text : List UInt8}

theorem take_encrypt : (k.encrypt nonce text).take 12 = nonce.bytes :=
  List.take_left' nonce.length_bytes

theorem drop_encrypt : (k.encrypt nonce text).drop 12 = Gcm.encrypt k.cipher nonce text :=
  List.drop_left' nonce.length_bytes

@[simp] theorem length_encrypt : (k.encrypt nonce text).length = 28 + text.length := by
  simp only [encrypt, List.length_append, nonce.length_bytes, Gcm.length_encrypt]
  omega

/-- A payload opens to a text if and only if it is that text sealed under some nonce. -/
theorem decrypt_eq_ok_iff :
    k.decrypt payload = .ok text ↔ ∃ nonce, payload = k.encrypt nonce text := by
  constructor
  · intro opened
    unfold decrypt at opened
    split at opened
    case isTrue => cases opened
    case isFalse long =>
      dsimp only at opened
      split at opened
      case h_2 => cases opened
      case h_1 found =>
        cases opened
        have sealed := Gcm.decrypt?_eq_some_iff.mp found
        refine ⟨⟨payload.take 12, by rw [List.length_take]; omega⟩, ?_⟩
        rw [encrypt, ← sealed, List.take_append_drop]
  · rintro ⟨nonce, rfl⟩
    have long : ¬ (k.encrypt nonce text).length < 28 := by
      rw [length_encrypt]
      omega
    have carried : (⟨(k.encrypt nonce text).take 12, by rw [take_encrypt, nonce.length_bytes]⟩ :
        Gcm.Nonce) = nonce := Gcm.Nonce.eq_of_bytes take_encrypt
    rw [decrypt, dif_neg long]
    dsimp only
    rw [carried, drop_encrypt, Gcm.decrypt?_eq_some_iff.mpr rfl]

theorem decrypt_of_short (short : payload.length < 28) :
    k.decrypt payload = .error (shortPayload payload.length) := by
  rw [decrypt, dif_pos short]

/-- A payload that is long enough fails to open in one way only. -/
theorem decrypt_of_long (long : 28 ≤ payload.length) (shut : ∀ text, k.decrypt payload ≠ .ok text) :
    k.decrypt payload = .error corrupted := by
  rw [decrypt, dif_neg (by omega)] at shut ⊢
  dsimp only at shut ⊢
  split at shut
  case h_1 text _ => exact absurd rfl (shut text)
  case h_2 => rfl

/-- The nonce and the text of a payload that opens say what it is. -/
theorem payload_unique {other : List UInt8} (opened : k.decrypt payload = .ok text)
    (opened' : k.decrypt other = .ok text) (nonces : payload.take 12 = other.take 12) :
    payload = other := by
  obtain ⟨nonce, rfl⟩ := decrypt_eq_ok_iff.mp opened
  obtain ⟨nonce', rfl⟩ := decrypt_eq_ok_iff.mp opened'
  rw [take_encrypt, take_encrypt] at nonces
  rw [Gcm.Nonce.eq_of_bytes nonces]

/-- What stands in front of the tag of a payload that opens decides about the tag. -/
theorem payload_eq_of_front {other text' : List UInt8} (opened : k.decrypt payload = .ok text)
    (opened' : k.decrypt other = .ok text') (lengths : other.length = payload.length)
    (fronts : other.take (payload.length - 16) = payload.take (payload.length - 16)) :
    other = payload := by
  obtain ⟨nonce, rfl⟩ := decrypt_eq_ok_iff.mp opened
  obtain ⟨nonce', rfl⟩ := decrypt_eq_ok_iff.mp opened'
  have front (n : Gcm.Nonce) (t : List UInt8) : (k.encrypt n t).take (12 + t.length) =
      n.bytes ++ Gcm.crypt k.cipher n t := by
    rw [encrypt, Gcm.encrypt, ← List.append_assoc]
    exact List.take_left' (by simp [n.length_bytes])
  rw [length_encrypt, length_encrypt, Nat.add_left_cancel_iff] at lengths
  have place : 28 + text.length - 16 = 12 + text.length := by omega
  rw [length_encrypt, place, front, ← lengths, front] at fronts
  obtain ⟨nonces, encrypted⟩ :=
    List.append_inj fronts (nonce'.length_bytes.trans nonce.length_bytes.symm)
  obtain rfl := Gcm.Nonce.eq_of_bytes nonces
  simp only [encrypt, Gcm.encrypt, encrypted]

/-- A payload is the nonce, the encrypted text and the tag, and it opens to its text. A payload
    that opens is its text sealed under its nonce, so with one key, one nonce and one text there
    is one payload, and one tag for what stands in front of it. -/
theorem decrypt_encrypts (k : ContentKey) :
    (∀ (nonce : Gcm.Nonce) (text : List UInt8),
      let encrypted := Gcm.crypt k.cipher nonce text
      let payload := k.encrypt nonce text
      payload = nonce.bytes ++ encrypted ++ Gcm.tag k.cipher nonce encrypted
        ∧ encrypted.length = text.length ∧ payload.length = 28 + text.length
        ∧ k.decrypt payload = .ok text)
      ∧ (∀ payload, payload.length < 28 →
        ∃ message, k.decrypt payload = .error (.decrypt message))
      ∧ (∀ payload text, k.decrypt payload = .ok text →
        ∃ nonce : Gcm.Nonce, nonce.bytes = payload.take 12 ∧ payload = k.encrypt nonce text)
      ∧ (∀ payload other text, k.decrypt payload = .ok text → k.decrypt other = .ok text →
        payload.take 12 = other.take 12 → payload = other)
      ∧ ∀ payload other text, k.decrypt payload = .ok text → other.length = payload.length →
        other.take (payload.length - 16) = payload.take (payload.length - 16) →
        other ≠ payload → ∃ message, k.decrypt other = .error (.decrypt message) := by
  refine ⟨?layout, ?short, ?canonical, ?unique, ?tag⟩
  case layout =>
    intro nonce text encrypted payload
    refine ⟨?_, Gcm.length_crypt _ _ text, length_encrypt, decrypt_eq_ok_iff.mpr ⟨nonce, rfl⟩⟩
    exact (List.append_assoc ..).symm
  case short => exact fun payload short => ⟨_, decrypt_of_short short⟩
  case canonical =>
    intro payload text opened
    obtain ⟨nonce, rfl⟩ := decrypt_eq_ok_iff.mp opened
    exact ⟨nonce, take_encrypt.symm, rfl⟩
  case unique => exact fun payload other text => payload_unique
  case tag =>
    intro payload other text opened lengths fronts changed
    have long : 28 ≤ other.length := by
      obtain ⟨nonce, rfl⟩ := decrypt_eq_ok_iff.mp opened
      rw [lengths, length_encrypt]
      omega
    refine ⟨_, decrypt_of_long long fun text' opened' => changed ?_⟩
    exact payload_eq_of_front opened opened' lengths fronts

/-- A text that fills no block, its payload with every byte of the tag changed, and bytes that
    are no payload. -/
theorem decrypt_encrypts_changed :
    let k : ContentKey := ⟨(List.range 32).map Nat.toUInt8, by decide⟩
    let nonce : Gcm.Nonce := ⟨List.replicate 12 7, rfl⟩
    let text : List UInt8 := [104, 105]
    let payload := k.encrypt nonce text
    let other := payload.take 14 ++ (payload.drop 14).map (· ^^^ 1)
    k.decrypt payload = .ok text ∧ other.length = payload.length
      ∧ other.take (payload.length - 16) = payload.take (payload.length - 16) ∧ other ≠ payload
      ∧ (∃ message, k.decrypt other = .error (.decrypt message))
      ∧ (List.replicate 20 (0 : UInt8)).length < 28
      ∧ ∃ message, k.decrypt (List.replicate 20 0) = .error (.decrypt message) := by
  intro k nonce text payload other
  obtain ⟨sealing, short, _, _, tagged⟩ := decrypt_encrypts k
  obtain ⟨_, _, length, opened⟩ := sealing nonce text
  have length : payload.length = 30 := length
  have lengths : other.length = payload.length := by simp [other, length]
  have fronts : other.take (payload.length - 16) = payload.take (payload.length - 16) := by
    rw [length]
    exact List.take_left' (by simp [length])
  have changed : other ≠ payload := by
    intro same
    have tags : (payload.drop 14).map (· ^^^ 1) = payload.drop 14 :=
      List.append_cancel_left (same.trans (List.take_append_drop 14 payload).symm)
    have tag : 0 < (payload.drop 14).length := by simp [length]
    obtain ⟨b, rest, cut⟩ := List.exists_cons_of_length_pos tag
    rw [cut, List.map_cons, List.cons.injEq] at tags
    have flipped : b ^^^ (b ^^^ 1) = b ^^^ b := congrArg (b ^^^ ·) tags.1
    rw [← UInt8.xor_assoc, UInt8.xor_self] at flipped
    exact absurd flipped (by decide)
  exact ⟨opened, lengths, fronts, changed, tagged payload other text opened lengths fronts changed,
    by decide, short _ (by decide)⟩

end ContentKey

end NoteAssistant
