import Mathlib.Data.List.Basic
import NoteAssistant.Json.Tree
import NoteAssistant.Proofs.Text.NameKey
import NoteAssistant.Text.Hex
import NoteAssistant.Text.Utf8

/-! # Hexadecimal digits and the bytes they denote

Digits are read as bytes of UTF-8, in pairs. What a text denotes is told by its characters alone
(`Denotes`), and reading agrees: a text of an even number of digits is read as what it denotes
(`decode_of_denotes`), and of any other text the first thing that is wrong is reported
(`decode_of_odd`, `decode_of_bad`).
-/

namespace NoteAssistant.Text.Hex

open Json (hexValue?)

/-- A text of hexadecimal digits, in either case. -/
def Digits (s : List Char) : Prop := ∀ c ∈ s, (hexValue? c).isSome = true

/-- The bytes that pairs of digits denote. -/
inductive Denotes : List Char → List UInt8 → Prop where
  | nil : Denotes [] []
  | pair {a b : Char} {hi lo : Nat} {s : List Char} {bytes : List UInt8}
      (high : hexValue? a = some hi) (low : hexValue? b = some lo) (rest : Denotes s bytes) :
      Denotes (a :: b :: s) (UInt8.ofNat (16 * hi + lo) :: bytes)

section Characters

variable {c : Char} {v : Nat}

/-- The value of a digit by its code point. -/
theorem hexValue?_eq (c : Char) :
    hexValue? c =
      if 48 ≤ c.toNat ∧ c.toNat ≤ 57 then some (c.toNat - 48)
      else if 97 ≤ c.toNat ∧ c.toNat ≤ 102 then some (c.toNat - 87)
      else if 65 ≤ c.toNat ∧ c.toNat ≤ 70 then some (c.toNat - 55)
      else none := by
  simp only [hexValue?, Bool.and_eq_true, decide_eq_true_eq, Char.le_def, UInt32.le_iff_toNat_le]
  rfl

theorem hexValue?_bounds (value : hexValue? c = some v) : c.toNat < 128 ∧ v < 16 := by
  rw [hexValue?_eq] at value
  grind

theorem hexValue?_toLower (c : Char) : hexValue? c.toLower = hexValue? c := by
  by_cases upper : c.val ≥ 'A'.val ∧ c.val ≤ 'Z'.val
  · have low : 65 ≤ c.toNat := upper.1
    have high : c.toNat ≤ 90 := upper.2
    rw [hexValue?_eq, hexValue?_eq, toNat_toLower upper]
    grind
  · unfold Char.toLower
    rw [dif_neg upper]

/-- A digit is no white space. -/
theorem isBlank_of_hexValue? (value : hexValue? c = some v) : isBlank c = false := by
  rw [hexValue?_eq] at value
  simp [isBlank, inRanges, blankRanges]
  grind

/-- ASCII characters are digits as their only bytes are. -/
theorem digit?_ascii :
    ∀ n < 128, digit? (UInt8.ofNat n) = (hexValue? (Char.ofNat n)).map UInt8.ofNat := by
  decide +kernel

theorem digit?_eq_none : ∀ n < 256, 128 ≤ n → digit? (UInt8.ofNat n) = none := by decide +kernel

theorem encode_ascii (small : c.toNat < 128) : String.utf8EncodeChar c = [UInt8.ofNat c.toNat] := by
  rw [String.utf8EncodeChar]
  exact if_pos (Nat.le_of_lt_succ small)

theorem digit?_of_hexValue? (value : hexValue? c = some v) :
    digit? (UInt8.ofNat c.toNat) = some (UInt8.ofNat v) := by
  rw [digit?_ascii c.toNat (hexValue?_bounds value).1, Char.ofNat_toNat, value]
  rfl

/-- Any other character begins with a byte that is no digit. -/
theorem exists_bad_byte (other : hexValue? c = none) :
    ∃ b bytes, String.utf8EncodeChar c = b :: bytes ∧ digit? b = none := by
  by_cases small : c.toNat < 128
  · refine ⟨_, [], encode_ascii small, ?_⟩
    rw [digit?_ascii c.toNat small, Char.ofNat_toNat, other]
    rfl
  · have bad (n : Nat) (large : 192 ≤ n) (byte : n < 256) : digit? (UInt8.ofNat n) = none :=
      digit?_eq_none n byte (by omega)
    rw [String.utf8EncodeChar]
    rw [if_neg (by change ¬ c.toNat ≤ 127; omega)]
    split
    case isTrue => exact ⟨_, _, rfl, bad _ (by omega) (by omega)⟩
    case isFalse =>
      split
      case isTrue => exact ⟨_, _, rfl, bad _ (by omega) (by omega)⟩
      case isFalse => exact ⟨_, _, rfl, bad _ (by omega) (by omega)⟩

end Characters

section Denoting

variable {s t : List Char} {bytes : List UInt8}

theorem Denotes.digits (denotes : Denotes s bytes) : Digits s := by
  induction denotes with
  | nil => exact List.forall_mem_nil _
  | pair high low _ ih =>
      exact List.forall_mem_cons.mpr
        ⟨by rw [high]; rfl, List.forall_mem_cons.mpr ⟨by rw [low]; rfl, ih⟩⟩

theorem Denotes.length_eq (denotes : Denotes s bytes) : s.length = 2 * bytes.length := by
  induction denotes with
  | nil => rfl
  | pair _ _ _ ih =>
      simp only [List.length_cons, ih]
      omega

/-- Digits in pairs denote something. -/
theorem exists_denotes (digits : Digits s) (even : s.length % 2 = 0) :
    ∃ bytes, Denotes s bytes := by
  induction s using List.twoStepInduction with
  | nil => exact ⟨[], .nil⟩
  | singleton a => cases even
  | cons_cons a b rest ih =>
      obtain ⟨first, digits⟩ := List.forall_mem_cons.mp digits
      obtain ⟨second, digits⟩ := List.forall_mem_cons.mp digits
      obtain ⟨hi, high⟩ := Option.isSome_iff_exists.mp first
      obtain ⟨lo, low⟩ := Option.isSome_iff_exists.mp second
      simp only [List.length_cons] at even
      obtain ⟨bytes, denotes⟩ := ih digits (by omega)
      exact ⟨_, .pair high low denotes⟩

/-- The case of the letters makes no difference. -/
theorem denotes_lowerAscii : Denotes (lowerAscii s) bytes ↔ Denotes s bytes := by
  constructor
  · intro denotes
    induction s using List.twoStepInduction generalizing bytes with
    | nil => exact denotes
    | singleton a => cases denotes
    | cons_cons a b rest ih =>
        cases denotes with
        | pair high low later =>
            rw [hexValue?_toLower] at high low
            exact .pair high low (ih later)
  · intro denotes
    induction denotes with
    | nil => exact .nil
    | pair high low _ ih =>
        exact .pair (by rwa [hexValue?_toLower]) (by rwa [hexValue?_toLower]) ih

theorem Digits.trim (digits : Digits s) : Text.trim s = s := by
  refine trim_of_unblank fun c mem => ?_
  obtain ⟨v, value⟩ := Option.isSome_iff_exists.mp (digits c mem)
  exact isBlank_of_hexValue? value

/-- Digits are bytes of their own. -/
theorem Digits.encode (digits : Digits s) :
    Utf8.encode s = s.map fun c => UInt8.ofNat c.toNat := by
  induction s with
  | nil => rfl
  | cons c s ih =>
      obtain ⟨first, digits⟩ := List.forall_mem_cons.mp digits
      obtain ⟨v, value⟩ := Option.isSome_iff_exists.mp first
      rw [Utf8.encode, List.flatMap_cons, encode_ascii (hexValue?_bounds value).1, ← Utf8.encode,
        ih digits]
      rfl

theorem Digits.length_encode (digits : Digits s) : (Utf8.encode s).length = s.length := by
  rw [digits.encode, List.length_map]

/-- A text that has another character too begins with digits up to the first one of these. -/
theorem exists_first_bad (other : ¬ Digits s) :
    ∃ front c back, s = front ++ c :: back ∧ Digits front ∧ hexValue? c = none := by
  induction s with
  | nil => exact absurd (List.forall_mem_nil _) other
  | cons c s ih =>
      cases value : hexValue? c with
      | none => exact ⟨[], c, s, rfl, List.forall_mem_nil _, value⟩
      | some v =>
          have later : ¬ Digits s := fun digits =>
            other (List.forall_mem_cons.mpr ⟨by rw [value]; rfl, digits⟩)
          obtain ⟨front, d, back, rfl, digits, bad⟩ := ih later
          exact ⟨c :: front, d, back, rfl,
            List.forall_mem_cons.mpr ⟨by rw [value]; rfl, digits⟩, bad⟩

end Denoting

/-! ## Reading -/

section Reading

variable {s front back : List Char} {c : Char} {b : UInt8} {bytes : List UInt8}

theorem pairs_of_denotes (denotes : Denotes s bytes) (position : Nat) :
    pairs position (Utf8.encode s) = .ok bytes := by
  rw [denotes.digits.encode]
  induction denotes generalizing position with
  | nil => rfl
  | pair high low _ ih =>
      simp only [List.map_cons, pairs, digit?_of_hexValue? high, digit?_of_hexValue? low, ih]
      have small := (hexValue?_bounds high).2
      have value (hi lo : Nat) :
          UInt8.ofNat hi * 16 + UInt8.ofNat lo = UInt8.ofNat (16 * hi + lo) := by
        rw [Nat.mul_comm, UInt8.ofNat_add, UInt8.ofNat_mul]
        rfl
      rw [value]

theorem decode_of_denotes (denotes : Denotes s bytes) : decode (Utf8.encode s) = .ok bytes := by
  have even : (Utf8.encode s).length % 2 ≠ 1 := by
    rw [denotes.digits.length_encode, denotes.length_eq]
    omega
  rw [decode, if_neg even, pairs_of_denotes denotes]

theorem decode_of_odd (odd : (Utf8.encode s).length % 2 = 1) :
    decode (Utf8.encode s) = .error .oddLength := if_pos odd

/-- The first byte that is no digit is found, if the number of bytes is even. -/
theorem pairs_of_bad {front back : List UInt8} (digits : ∀ x ∈ front, (digit? x).isSome = true)
    (bad : digit? b = none) (even : (front ++ b :: back).length % 2 = 0) (position : Nat) :
    pairs position (front ++ b :: back) = .error (.badDigit b (position + front.length)) := by
  induction front using List.twoStepInduction generalizing position with
  | nil =>
      cases back with
      | nil => cases even
      | cons x back => simp [pairs, bad]
  | singleton a =>
      obtain ⟨v, value⟩ := Option.isSome_iff_exists.mp (digits a List.mem_cons_self)
      simp [pairs, bad, value]
  | cons_cons a a' front ih =>
      obtain ⟨first, digits⟩ := List.forall_mem_cons.mp digits
      obtain ⟨second, digits⟩ := List.forall_mem_cons.mp digits
      obtain ⟨hi, high⟩ := Option.isSome_iff_exists.mp first
      obtain ⟨lo, low⟩ := Option.isSome_iff_exists.mp second
      have later := ih digits (by simp at even ⊢; omega) (position + 2)
      simp only [List.cons_append, pairs, high, low, later, List.length_cons]
      rw [Nat.add_right_comm, Nat.add_assoc position]

/-- What is reported of a text with an even number of bytes is the first byte of its first
    character that is no digit. -/
theorem decode_of_bad (digits : Digits front) (bad : hexValue? c = none)
    (even : (Utf8.encode (front ++ c :: back)).length % 2 = 0) :
    ∃ b, (String.utf8EncodeChar c).head? = some b ∧
      decode (Utf8.encode (front ++ c :: back)) = .error (.badDigit b front.length) := by
  obtain ⟨b, more, bytes, none⟩ := exists_bad_byte bad
  have shape : Utf8.encode (front ++ c :: back) =
      Utf8.encode front ++ b :: (more ++ Utf8.encode back) := by
    simp [Utf8.encode, bytes]
  have read : ∀ x ∈ Utf8.encode front, (digit? x).isSome = true := by
    rw [digits.encode]
    intro x mem
    obtain ⟨d, there, rfl⟩ := List.mem_map.mp mem
    obtain ⟨v, value⟩ := Option.isSome_iff_exists.mp (digits d there)
    rw [digit?_of_hexValue? value]
    rfl
  refine ⟨b, by rw [bytes]; rfl, ?_⟩
  rw [decode, if_neg (by omega), shape, pairs_of_bad read none (by rwa [← shape]) 0,
    digits.length_encode, Nat.zero_add]

end Reading

/-! ## Writing -/

theorem digit_values :
    ∀ n < 16, hexValue? (digit (UInt8.ofNat n)) = some n ∧
      (digit (UInt8.ofNat n)).toLower = digit (UInt8.ofNat n) := by
  decide +kernel

/-- The two digits of a byte. -/
theorem byte_digits (b : UInt8) :
    (hexValue? (digit (b / 16)) = some (b.toNat / 16) ∧ (digit (b / 16)).toLower = digit (b / 16)) ∧
      hexValue? (digit (b % 16)) = some (b.toNat % 16) ∧
        (digit (b % 16)).toLower = digit (b % 16) := by
  have small : b.toNat < 256 := b.toNat_lt
  have quotient : UInt8.ofNat (b.toNat / 16) = b / 16 := by
    rw [← UInt8.toNat_inj]
    simp
    omega
  have remainder : UInt8.ofNat (b.toNat % 16) = b % 16 := by
    rw [← UInt8.toNat_inj]
    simp
    omega
  rw [← quotient, ← remainder]
  exact ⟨digit_values _ (by omega), digit_values _ (by omega)⟩

/-- What is written for bytes denotes these bytes. -/
theorem denotes_encode (bytes : List UInt8) : Denotes (encode bytes) bytes := by
  induction bytes with
  | nil => exact .nil
  | cons b bytes ih =>
      obtain ⟨⟨high, _⟩, low, _⟩ := byte_digits b
      have pair := Denotes.pair high low ih
      rwa [Nat.div_add_mod, UInt8.ofNat_toNat] at pair

theorem lowerAscii_encode (bytes : List UInt8) : lowerAscii (encode bytes) = encode bytes := by
  induction bytes with
  | nil => rfl
  | cons b bytes ih =>
      obtain ⟨⟨_, high⟩, _, low⟩ := byte_digits b
      rw [encode, List.flatMap_cons, lowerAscii, List.map_append, ← encode, ← lowerAscii,
        ← lowerAscii, ih]
      simp [lowerAscii, high, low]

end NoteAssistant.Text.Hex
