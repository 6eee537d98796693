import Mathlib.Data.List.Basic
import NoteAssistant.Config.Location
import NoteAssistant.Text.Utf8

/-! # Bytes and lines of a text

A slice between two bytes is taken only if both lie between characters. The lines of a text that
is put together from some of its lines are these lines again.
-/

namespace NoteAssistant

namespace Location

/-! ## Bytes -/

section Bytes

variable {s mid : List Char} {start stop : Nat}

@[simp] theorem size_nil : size [] = 0 := rfl

@[simp] theorem size_cons (c : Char) (s : List Char) : size (c :: s) = c.utf8Size + size s := rfl

@[simp] theorem size_append (s t : List Char) : size (s ++ t) = size s + size t := by
  induction s with
  | nil => simp
  | cons c s ih => simp [ih, Nat.add_assoc]

/-- A text before and after a byte; there is no cut behind the end or inside a character. -/
def cutAt? (n : Nat) : List Char → Option (List Char × List Char)
  | [] => if n = 0 then some ([], []) else none
  | c :: s =>
    if n = 0 then some ([], c :: s)
    else if c.utf8Size ≤ n then (cutAt? (n - c.utf8Size) s).map fun (a, b) => (c :: a, b)
    else none

theorem cutAt?_append (a b : List Char) : cutAt? (size a) (a ++ b) = some (a, b) := by
  induction a with
  | nil => cases b <;> rfl
  | cons c a ih =>
      have filled := c.utf8Size_pos
      rw [List.cons_append, cutAt?, size_cons, if_neg (by omega), if_pos (by omega),
        Nat.add_sub_cancel_left, ih]
      rfl

theorem eq_of_cutAt? {n : Nat} {a b : List Char} (cut : cutAt? n s = some (a, b)) :
    s = a ++ b ∧ size a = n := by
  induction s generalizing n a with
  | nil =>
      unfold cutAt? at cut
      split at cut
      case isTrue start =>
        cases cut
        exact ⟨rfl, start.symm⟩
      case isFalse => cases cut
  | cons c s ih =>
      unfold cutAt? at cut
      split at cut
      case isTrue start =>
        cases cut
        exact ⟨rfl, start.symm⟩
      case isFalse =>
        split at cut
        case isTrue fits =>
          obtain ⟨⟨a, b⟩, later, same⟩ := Option.map_eq_some_iff.mp cut
          cases same
          obtain ⟨rfl, sized⟩ := ih later
          exact ⟨rfl, by rw [size_cons]; omega⟩
        case isFalse => cases cut

/-- The text between two bytes. -/
def slice? (start stop : Nat) (s : List Char) : Option (List Char) := do
  let (_, rest) ← cutAt? start s
  if start ≤ stop then (cutAt? (stop - start) rest).map (·.1) else none

theorem slice?_append (before mid after : List Char) :
    slice? (size before) (size before + size mid) (before ++ mid ++ after) = some mid := by
  rw [slice?, List.append_assoc, cutAt?_append]
  change (if _ then _ else _) = _
  rw [if_pos (Nat.le_add_right _ _), Nat.add_sub_cancel_left, cutAt?_append]
  rfl

theorem slice?_eq_some_iff :
    slice? start stop s = some mid ↔
      ∃ before after, s = before ++ mid ++ after ∧ size before = start ∧
        start + size mid = stop := by
  constructor
  · intro taken
    obtain ⟨⟨before, rest⟩, front, last⟩ := Option.bind_eq_some_iff.mp taken
    obtain ⟨rfl, begins⟩ := eq_of_cutAt? front
    change (if start ≤ stop then _ else _) = _ at last
    split at last
    case isTrue ordered =>
      obtain ⟨⟨m, after⟩, back, rfl⟩ := Option.map_eq_some_iff.mp last
      obtain ⟨rfl, ends⟩ := eq_of_cutAt? back
      have sized : start + size m = stop := by omega
      exact ⟨before, after, (List.append_assoc _ _ _).symm, begins, sized⟩
    case isFalse => cases last
  · rintro ⟨before, after, rfl, rfl, rfl⟩
    exact slice?_append before mid after

theorem length_encode (s : List Char) : (Text.Utf8.encode s).length = size s := by
  induction s with
  | nil => rfl
  | cons c s ih =>
      have first : (String.utf8EncodeChar c).length = c.utf8Size := String.length_utf8EncodeChar c
      rw [Text.Utf8.encode, List.flatMap_cons, List.length_append, first, size_cons, ← ih]
      rfl

theorem encode_append (s t : List Char) :
    Text.Utf8.encode (s ++ t) = Text.Utf8.encode s ++ Text.Utf8.encode t :=
  List.flatMap_append

/-- The bytes of a slice are those of the text from the first byte up to the second. -/
theorem encode_slice? (taken : slice? start stop s = some mid) :
    ((Text.Utf8.encode s).drop start).take (stop - start) = Text.Utf8.encode mid := by
  obtain ⟨before, after, rfl, rfl, rfl⟩ := slice?_eq_some_iff.mp taken
  rw [Nat.add_sub_cancel_left, ← length_encode, ← length_encode, encode_append, encode_append,
    List.append_assoc, List.drop_left, List.take_left]

end Bytes

end Location

/-! ## Lines -/

namespace Text

/-- Every line ends with a line feed and has no other, but for the last one, which may end
    without. -/
inductive Lined : List (List Char) → Prop where
  | nil : Lined []
  | last {l : List Char} (filled : l ≠ []) (unbroken : '\n' ∉ l) : Lined [l]
  | line {l : List Char} {ls : List (List Char)} (unbroken : '\n' ∉ l) (rest : Lined ls) :
      Lined ((l ++ ['\n']) :: ls)

theorem lines_append_of_unbroken {l s : List Char} (unbroken : '\n' ∉ l) :
    lines (l ++ '\n' :: s) = (l ++ ['\n']) :: lines s := by
  induction l with
  | nil => simp [lines]
  | cons c l ih =>
      obtain ⟨other, unbroken⟩ : '\n' ≠ c ∧ '\n' ∉ l := by simpa using unbroken
      rw [List.cons_append, lines, if_neg other.symm, ih unbroken]
      rfl

theorem lines_of_unbroken {l : List Char} (filled : l ≠ []) (unbroken : '\n' ∉ l) :
    lines l = [l] := by
  induction l with
  | nil => contradiction
  | cons c l ih =>
      obtain ⟨other, unbroken⟩ : '\n' ≠ c ∧ '\n' ∉ l := by simpa using unbroken
      rw [lines, if_neg other.symm]
      cases l with
      | nil => rfl
      | cons d l => rw [ih (by simp) unbroken]

theorem lined_lines (s : List Char) : Lined (lines s) := by
  fun_induction lines s with
  | case1 => exact .nil
  | case2 s ih => exact .line (l := []) (by simp) ih
  | case3 c s other _ ih => exact .last (by simp) (by simpa using Ne.symm other)
  | case4 c s other line rest found ih =>
      rw [found] at ih
      cases ih with
      | last filled unbroken => exact .last (by simp) (by simp [unbroken, Ne.symm other])
      | line unbroken lined =>
          rw [← List.cons_append]
          exact .line (by simp [unbroken, Ne.symm other]) lined

variable {ls ms : List (List Char)}

theorem Lined.lines_flatten (lined : Lined ls) : lines ls.flatten = ls := by
  induction lined with
  | nil => rfl
  | last filled unbroken => simpa using lines_of_unbroken filled unbroken
  | line unbroken _ ih =>
      rw [List.flatten_cons, List.append_assoc, List.singleton_append,
        lines_append_of_unbroken unbroken, ih]

theorem Lined.left (lined : Lined (ls ++ ms)) : Lined ls := by
  induction ls with
  | nil => exact .nil
  | cons l ls ih =>
      generalize whole : (l :: ls) ++ ms = all at lined
      cases lined with
      | nil => cases whole
      | last filled unbroken =>
          obtain ⟨rfl, none⟩ := List.cons.inj whole
          obtain ⟨rfl, -⟩ := List.append_eq_nil_iff.mp none
          exact .last filled unbroken
      | line unbroken rest =>
          obtain ⟨rfl, rfl⟩ := List.cons.inj whole
          exact .line unbroken (ih rest)

theorem Lined.tail {l : List Char} (lined : Lined (l :: ls)) : Lined ls := by
  cases lined with
  | last => exact .nil
  | line _ rest => exact rest

theorem Lined.right (lined : Lined (ls ++ ms)) : Lined ms := by
  induction ls with
  | nil => exact lined
  | cons l ls ih => exact ih lined.tail

end Text

end NoteAssistant
