import Mathlib.Data.List.DropRight
import NoteAssistant.Text.Blank

/-! # Names and keys in normal form

Trimming and lowering a text once is enough: the result is its own normal form.
-/

namespace NoteAssistant

namespace Text

theorem toLower_toLower (c : Char) : c.toLower.toLower = c.toLower := by
  unfold Char.toLower
  grind

theorem toNat_toLower {c : Char} (upper : c.val ≥ 'A'.val ∧ c.val ≤ 'Z'.val) :
    c.toLower.toNat = c.toNat + 32 := by
  have high : c.toNat ≤ 90 := upper.2
  unfold Char.toLower
  rw [dif_pos upper]
  change (c.val + 32).toNat = c.toNat + 32
  rw [UInt32.toNat_add]
  exact Nat.mod_eq_of_lt (show c.toNat + 32 < 4294967296 by omega)

theorem isBlank_toLower (c : Char) : isBlank c.toLower = isBlank c := by
  by_cases upper : c.val ≥ 'A'.val ∧ c.val ≤ 'Z'.val
  · have letter (n : Nat) (low : 65 ≤ n) (high : n ≤ 122) : inRanges blankRanges n = false := by
      simp [inRanges, blankRanges]
      omega
    have low : 65 ≤ c.toNat := upper.1
    have high : c.toNat ≤ 90 := upper.2
    rw [isBlank, isBlank, toNat_toLower upper, letter _ (by omega) (by omega),
      letter _ low (by omega)]
  · unfold Char.toLower
    rw [dif_neg upper]

theorem lowerAscii_lowerAscii (s : List Char) : lowerAscii (lowerAscii s) = lowerAscii s := by
  rw [lowerAscii, lowerAscii, List.map_map]
  exact congrArg (List.map · s) (funext toLower_toLower)

theorem trimStart_lowerAscii (s : List Char) :
    trimStart (lowerAscii s) = lowerAscii (trimStart s) := by
  rw [trimStart, lowerAscii, List.dropWhile_map]
  exact congrArg (fun p => (s.dropWhile p).map Char.toLower) (funext isBlank_toLower)

theorem trimEnd_lowerAscii (s : List Char) :
    trimEnd (lowerAscii s) = lowerAscii (trimEnd s) := by
  have back := trimStart_lowerAscii s.reverse
  simp only [trimStart, lowerAscii] at back
  rw [trimEnd, lowerAscii, ← List.map_reverse, back, trimEnd, lowerAscii, List.map_reverse]

theorem trim_lowerAscii (s : List Char) : trim (lowerAscii s) = lowerAscii (trim s) := by
  rw [trim, trimStart_lowerAscii, trimEnd_lowerAscii, trim]

theorem trim_trim (s : List Char) : trim (trim s) = trim s := by
  have front : trimEnd (trimStart s) <+: trimStart s := List.rdropWhile_prefix isBlank (trimStart s)
  have started : trimStart (trim s) = trim s := by
    rw [trimStart, List.dropWhile_eq_self_iff]
    intro long blank
    have longer : 0 < (trimStart s).length := Nat.lt_of_lt_of_le long front.length_le
    have first : (trim s)[0] = (trimStart s)[0] := front.getElem long
    rw [first] at blank
    exact List.dropWhile_eq_self_iff.mp (List.dropWhile_idempotent isBlank s) longer blank
  rw [trim, started]
  exact List.rdropWhile_idempotent isBlank (trimStart s)

theorem trim_infix (s : List Char) : trim s <:+: s :=
  (List.rdropWhile_prefix isBlank (trimStart s)).isInfix.trans (List.dropWhile_suffix isBlank).isInfix

/-- A text without white space is trimmed already. -/
theorem trim_of_unblank {s : List Char} (dense : ∀ c ∈ s, isBlank c = false) : trim s = s := by
  have kept {t : List Char} (dense : ∀ c ∈ t, isBlank c = false) : t.dropWhile isBlank = t := by
    cases t with
    | nil => rfl
    | cons c t => exact List.dropWhile_cons_of_neg (by simp [dense c List.mem_cons_self])
  rw [trim, trimEnd, trimStart, kept dense, kept fun c mem => dense c (List.mem_reverse.mp mem),
    List.reverse_reverse]

theorem trim_eq_nil {s : List Char} : trim s = [] ↔ ∀ c ∈ s, isBlank c = true := by
  have started : (trimStart s).dropWhile isBlank = trimStart s :=
    List.dropWhile_idempotent isBlank s
  calc trim s = [] ↔ ∀ c ∈ trimStart s, isBlank c = true := List.rdropWhile_eq_nil_iff
    _ ↔ (trimStart s).dropWhile isBlank = [] := List.dropWhile_eq_nil_iff.symm
    _ ↔ trimStart s = [] := by rw [started]
    _ ↔ ∀ c ∈ s, isBlank c = true := List.dropWhile_eq_nil_iff

end Text

theorem trimmed_eq_empty {s : String} : trimmed s = "" ↔ isBlankText s = true := by
  rw [← String.toList_inj, trimmed, String.toList_ofList, isBlankText, List.all_eq_true]
  exact Text.trim_eq_nil

@[simp] theorem nameKey_nameKey (s : String) : nameKey (nameKey s) = nameKey s := by
  simp only [nameKey, lowered, trimmed, String.toList_ofList]
  rw [Text.trim_lowerAscii, Text.trim_trim, Text.lowerAscii_lowerAscii]

@[simp] theorem nameKey_lowered (s : String) : nameKey (lowered s) = nameKey s := by
  simp only [nameKey, lowered, trimmed, String.toList_ofList]
  rw [Text.trim_lowerAscii, Text.lowerAscii_lowerAscii]

/-- Lowering a name gives its normal form only if there are no blanks around it. -/
theorem lowered_eq_nameKey_iff (s : String) : lowered s = nameKey s ↔ trimmed s = s := by
  constructor
  · intro same
    have lengths : (Text.lowerAscii s.toList).length =
        (Text.lowerAscii (Text.trim s.toList)).length := by
      simpa [lowered, nameKey, trimmed] using congrArg (fun t => t.toList.length) same
    simp only [Text.lowerAscii, List.length_map] at lengths
    have whole := (Text.trim_infix s.toList).eq_of_length lengths.symm
    rw [trimmed, whole, String.ofList_toList]
  · intro same
    rw [nameKey, same]

end NoteAssistant
