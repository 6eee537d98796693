import Mathlib.Data.String.Basic
import NoteAssistant.Proofs.Config.Acceptance
import NoteAssistant.Proofs.Text.HexDigits
import NoteAssistant.Vault.ContentKey

/-! # Content keys as digits

A key is read from its digits with white space around them, and a configured key is checked
without trimming. `ContentKey.ofHex_agrees` says what reading makes of every text, that an accepted
configuration with a key always gives a cipher, and that every key has a text that is accepted and
read as this key.
-/

namespace NoteAssistant

open Json (hexValue?)
open Text (Utf8.encode)
open Text.Hex (Denotes Digits)

namespace ContentKey

/-- The fault of a text that is no sequence of digit pairs. -/
def notHex (e : Text.Hex.Fault) : Fault :=
  .config ("content key is not valid hex: " ++ e.message)

/-- What a trimmed text is as a key: a number of bytes that is odd comes before a character that
    is no digit, and this before a wrong number of digits. -/
inductive Judged (s : List Char) : Except Fault ContentKey → Prop where
  | odd (bytes : (Utf8.encode s).length % 2 = 1) : Judged s (.error (notHex .oddLength))
  | bad {front back : List Char} {c : Char} {b : UInt8}
      (bytes : (Utf8.encode s).length % 2 = 0) (shape : s = front ++ c :: back)
      (digits : Digits front) (other : hexValue? c = none)
      (first : (String.utf8EncodeChar c).head? = some b) :
      Judged s (.error (notHex (.badDigit b front.length)))
  | sized (digits : Digits s) (even : s.length % 2 = 0) (other : s.length ≠ 64) :
      Judged s (.error (.config s!"content key must be 32 bytes, got {s.length / 2}"))
  | key {k : ContentKey} (denotes : Denotes s k.bytes) : Judged s (.ok k)

variable {s : List Char} {text : String} {k : ContentKey}

theorem ofHex_of_error {e : Text.Hex.Fault}
    (read : Text.Hex.decode (Utf8.encode (Text.trim text.toList)) = .error e) :
    ofHex text = .error (notHex e) := by
  rw [ofHex, read]
  rfl

theorem ofHex_of_denotes {bytes : List UInt8} (denotes : Denotes (Text.trim text.toList) bytes) :
    ofHex text = if h : bytes.length = 32 then .ok ⟨bytes, h⟩
      else .error (.config s!"content key must be 32 bytes, got {bytes.length}") := by
  rw [ofHex, Text.Hex.decode_of_denotes denotes]

theorem ofHex_of_judged {r : Except Fault ContentKey} (judged : Judged (Text.trim text.toList) r) :
    ofHex text = r := by
  generalize trimmed : Text.trim text.toList = s at judged
  cases judged with
  | odd bytes =>
      subst trimmed
      exact ofHex_of_error (Text.Hex.decode_of_odd bytes)
  | bad bytes shape digits other first =>
      subst shape
      obtain ⟨b, begins, read⟩ := Text.Hex.decode_of_bad digits other bytes
      cases begins.symm.trans first
      exact ofHex_of_error (trimmed ▸ read)
  | sized digits even other =>
      obtain ⟨bytes, denotes⟩ := Text.Hex.exists_denotes digits even
      have half := denotes.length_eq
      rw [ofHex_of_denotes (trimmed ▸ denotes), dif_neg (by omega), half,
        Nat.mul_div_cancel_left _ Nat.two_pos]
  | @key k denotes => rw [ofHex_of_denotes (trimmed ▸ denotes), dif_pos k.length_bytes]

theorem exists_judged (s : List Char) : ∃ r, Judged s r := by
  by_cases digits : Digits s
  · by_cases odd : (Utf8.encode s).length % 2 = 1
    · exact ⟨_, .odd odd⟩
    · rw [digits.length_encode] at odd
      by_cases sized : s.length = 64
      · obtain ⟨bytes, denotes⟩ := Text.Hex.exists_denotes digits (by omega)
        have half := denotes.length_eq
        exact ⟨.ok ⟨bytes, by omega⟩, .key denotes⟩
      · exact ⟨_, .sized digits (by omega) sized⟩
  · obtain ⟨front, c, back, shape, good, other⟩ := Text.Hex.exists_first_bad digits
    obtain ⟨b, more, bytes, -⟩ := Text.Hex.exists_bad_byte other
    by_cases odd : (Utf8.encode s).length % 2 = 1
    · exact ⟨_, .odd odd⟩
    · exact ⟨_, .bad (by omega) shape good other (by rw [bytes]; rfl)⟩

theorem ofHex_eq_iff {r : Except Fault ContentKey} :
    ofHex text = r ↔ Judged (Text.trim text.toList) r := by
  constructor
  · rintro rfl
    obtain ⟨r, judged⟩ := exists_judged (Text.trim text.toList)
    rwa [ofHex_of_judged judged]
  · exact ofHex_of_judged

theorem ofHex_eq_ok_iff : ofHex text = .ok k ↔ Denotes (Text.trim text.toList) k.bytes := by
  rw [ofHex_eq_iff]
  constructor
  · rintro ⟨⟩
    assumption
  · exact .key

theorem exists_key_iff :
    (∃ k : ContentKey, Denotes s k.bytes) ↔ s.length = 64 ∧ Digits s := by
  constructor
  · rintro ⟨k, denotes⟩
    have sized := denotes.length_eq
    rw [k.length_bytes] at sized
    exact ⟨sized, denotes.digits⟩
  · rintro ⟨sized, digits⟩
    obtain ⟨bytes, denotes⟩ := Text.Hex.exists_denotes digits (by omega)
    have half := denotes.length_eq
    exact ⟨⟨bytes, by omega⟩, denotes⟩

/-- Texts that differ in the case of letters and in the white space around them are the same
    key. -/
theorem ofHex_congr {other : String} (same : nameKey text = nameKey other)
    (read : ofHex text = .ok k) : ofHex other = .ok k := by
  have same :
      Text.lowerAscii (Text.trim text.toList) = Text.lowerAscii (Text.trim other.toList) := by
    simpa [nameKey, lowered, trimmed] using congrArg String.toList same
  rw [ofHex_eq_ok_iff, ← Text.Hex.denotes_lowerAscii] at read ⊢
  rwa [← same]

end ContentKey

/-! ## Configured keys -/

namespace Config

variable {c : Config} {key : String}

theorem utf8Len_of_digits {s : List Char} (digits : Digits s) : String.utf8Len s = s.length := by
  induction s with
  | nil => rfl
  | cons c s ih =>
      obtain ⟨first, digits⟩ := List.forall_mem_cons.mp digits
      obtain ⟨v, value⟩ := Option.isSome_iff_exists.mp first
      have small := (Text.Hex.hexValue?_bounds value).1
      have single : c.utf8Size = 1 := by
        rw [← String.length_utf8EncodeChar, Text.Hex.encode_ascii small]
        rfl
      rw [String.utf8Len_cons, single, ih digits, List.length_cons]

/-- Checking a configured key is checking its digits. -/
theorem isVaultKey_iff : isVaultKey key = true ↔ key.toList.length = 64 ∧ Digits key.toList := by
  have digit (c : Char) :
      (('0' ≤ c && c ≤ '9') || ('a' ≤ c && c ≤ 'f') || ('A' ≤ c && c ≤ 'F')) =
        (hexValue? c).isSome := by
    unfold hexValue?
    grind
  have bytes : key.utf8ByteSize = String.utf8Len key.toList := by
    rw [← String.utf8ByteSize_ofList, String.ofList_toList]
  simp only [isVaultKey, digit, bytes, Bool.and_eq_true, decide_eq_true_eq, List.all_eq_true]
  refine and_congr_left fun digits => ?_
  rw [utf8Len_of_digits digits]

theorem vaultProblems_eq_nil {v : VaultConfig} :
    vaultProblems v = [] ↔ ∀ key, v.key = some key → isVaultKey key = true := by
  unfold vaultProblems
  cases v.key with
  | none => simp
  | some key => simp [report_eq_nil]

/-- The key of an accepted configuration is 64 digits. -/
theorem key_of_isValid (valid : c.isValid = true) (given : c.vault.key = some key) :
    key.toList.length = 64 ∧ Digits key.toList := by
  have none : c.problems = [] := List.isEmpty_iff.mp valid
  simp only [problems, List.append_eq_nil_iff] at none
  exact isVaultKey_iff.mp (vaultProblems_eq_nil.mp none.2 key given)

/-- A configuration with another content key. -/
def withKey (c : Config) (key : String) : Config :=
  { c with vault := { c.vault with key := some key } }

theorem isValid_withKey (valid : c.isValid = true) (good : isVaultKey key = true) :
    (c.withKey key).isValid = true := by
  have none : c.problems = [] := List.isEmpty_iff.mp valid
  have vault : vaultProblems (c.withKey key).vault = [] := by
    refine vaultProblems_eq_nil.mpr fun other given => ?_
    cases given
    exact good
  simp only [problems, List.append_eq_nil_iff] at none
  rw [isValid, List.isEmpty_iff]
  simp only [problems, List.append_eq_nil_iff]
  exact ⟨none.1, vault⟩

end Config

namespace ContentKey

/-- The key in lower-case digits. -/
def hex (k : ContentKey) : String := String.ofList (Text.Hex.encode k.bytes)

theorem denotes_hex (k : ContentKey) : Denotes k.hex.toList k.bytes := by
  rw [hex, String.toList_ofList]
  exact Text.Hex.denotes_encode k.bytes

theorem ofHex_of_digits {key : String} {k : ContentKey} (denotes : Denotes key.toList k.bytes) :
    ofHex key = .ok k := by
  rw [ofHex_eq_ok_iff, denotes.digits.trim]
  exact denotes

theorem ofHex_agrees :
    (∀ text r, ofHex text = r ↔ Judged (Text.trim text.toList) r) ∧
    (∀ text, (∃ k, ofHex text = .ok k) ↔
      (Text.trim text.toList).length = 64 ∧ Digits (Text.trim text.toList)) ∧
    (∀ text k, ofHex text = .ok k → Denotes (Text.trim text.toList) k.bytes ∧
      ∀ other, nameKey text = nameKey other → ofHex other = .ok k) ∧
    (∀ (c : Config) (key : String), c.isValid = true → c.vault.key = some key →
      ∃ k, Denotes key.toList k.bytes ∧ ∀ lookup, ofConfig c.vault lookup = .ok (some k)) ∧
    ∀ k : ContentKey, Denotes k.hex.toList k.bytes ∧ lowered k.hex = k.hex ∧
      ofHex k.hex = .ok k ∧ ∀ c : Config, c.isValid = true → (c.withKey k.hex).isValid = true := by
  refine ⟨fun text r => ofHex_eq_iff, fun text => ?success, fun text k read => ?denoted,
    fun c key valid given => ?configured, fun k => ⟨k.denotes_hex, ?lower, ?read, ?accepted⟩⟩
  case success => simp only [ofHex_eq_ok_iff, exists_key_iff]
  case denoted => exact ⟨ofHex_eq_ok_iff.mp read, fun other same => ofHex_congr same read⟩
  case configured =>
    obtain ⟨k, denotes⟩ := exists_key_iff.mpr (Config.key_of_isValid valid given)
    refine ⟨k, denotes, fun lookup => ?_⟩
    rw [ofConfig, given]
    exact congrArg (Except.map some) (ofHex_of_digits denotes)
  case lower => rw [lowered, hex, String.toList_ofList, Text.Hex.lowerAscii_encode]
  case read => exact ofHex_of_digits k.denotes_hex
  case accepted =>
    refine fun c valid => Config.isValid_withKey valid ?_
    rw [Config.isVaultKey_iff]
    exact exists_key_iff.mp ⟨k, k.denotes_hex⟩

/-- A key with letters, its digits in upper case with white space around them, and the key in a
    configuration. -/
theorem ofHex_agrees_padded :
    let k : ContentKey := ⟨(List.range' 200 32).map Nat.toUInt8, by decide⟩
    let padded := "\t" ++ k.hex.toUpper ++ " \n"
    let c := ({} : Config).withKey k.hex
    nameKey k.hex = nameKey padded ∧ ofHex k.hex = .ok k ∧ ofHex padded = .ok k ∧
      ({} : Config).isValid = true ∧ c.isValid = true ∧ c.vault.key = some k.hex ∧
      ∃ l, Denotes k.hex.toList l.bytes ∧ ∀ lookup, ofConfig c.vault lookup = .ok (some l) := by
  intro k padded c
  obtain ⟨-, -, denoted, configured, keys⟩ := ofHex_agrees
  obtain ⟨-, -, read, accepted⟩ := keys k
  have same : nameKey k.hex = nameKey padded := by decide +kernel
  have plain : ({} : Config).isValid = true := by decide +kernel
  exact ⟨same, read, (denoted _ k read).2 _ same, plain, accepted {} plain, rfl,
    configured c k.hex (accepted {} plain) rfl⟩

end ContentKey

end NoteAssistant
