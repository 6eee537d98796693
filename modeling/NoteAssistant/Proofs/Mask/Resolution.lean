import NoteAssistant.Mask.Scanner

/-! # Placeholders in a text that lies open

`MaskRules.resolve` says what becomes of the placeholders of a whole text, and
`MaskRules.units` where the result may be cut: the value of a placeholder is one unit, and so
is every other character. The scanner, which sees the text piece by piece, is in step with
both: what it has released, together with what becomes of the text that it holds back and of
all that follows, is what becomes of the text (`MaskRules.push_units`, `push_resolves`).
-/

namespace NoteAssistant

theorem maskPrefix_eq : maskPrefix = '$' :: "hidden[".toList := by decide +kernel

/-- A text in single characters. -/
def letters (text : List Char) : List (List Char) := text.map fun c => [c]

@[simp] theorem letters_nil : letters [] = [] := rfl

@[simp] theorem letters_append (a b : List Char) : letters (a ++ b) = letters a ++ letters b :=
  List.map_append

@[simp] theorem flatten_letters (text : List Char) : (letters text).flatten = text := by
  induction text with
  | nil => rfl
  | cons c text ih => exact congrArg (c :: ·) ih

namespace MaskRules

/-- The value of a placeholder, or the placeholder itself if it has none. -/
def value (r : MaskRules) (span : List Char) : List Char :=
  ((r.masks.get? (String.ofList span)).getD (String.ofList span)).toList

/-- A text with the values of its placeholders. The first closing bracket ends a
    placeholder if it stands within reach; otherwise the text within reach is left as it
    is. -/
def resolve (r : MaskRules) (text : List Char) : List Char :=
  match text with
  | [] => []
  | c :: cs =>
    if maskPrefix.isPrefixOf (c :: cs) then
      let place := (c :: cs).idxOf ']'
      if place ≤ r.maxSpan ∧ place < (c :: cs).length then
        r.value ((c :: cs).take (place + 1)) ++ r.resolve ((c :: cs).drop (place + 1))
      else (c :: cs).take (r.maxSpan + 1) ++ r.resolve ((c :: cs).drop (r.maxSpan + 1))
    else c :: r.resolve cs
termination_by text.length
decreasing_by
  all_goals
    simp only [List.length_drop, List.length_cons]
    omega

@[simp] theorem resolve_nil (r : MaskRules) : r.resolve [] = [] := by simp [resolve]

/-- The value of a placeholder in one; single characters if it has none. -/
def spanUnits (r : MaskRules) (span : List Char) : List (List Char) :=
  match r.masks.get? (String.ofList span) with
  | some value => [value.toList]
  | none => letters span

/-- A text with the values of its placeholders, of which each is kept in one. -/
def units (r : MaskRules) (text : List Char) : List (List Char) :=
  match text with
  | [] => []
  | c :: cs =>
    if maskPrefix.isPrefixOf (c :: cs) then
      let place := (c :: cs).idxOf ']'
      if place ≤ r.maxSpan ∧ place < (c :: cs).length then
        r.spanUnits ((c :: cs).take (place + 1)) ++ r.units ((c :: cs).drop (place + 1))
      else letters ((c :: cs).take (r.maxSpan + 1)) ++ r.units ((c :: cs).drop (r.maxSpan + 1))
    else [c] :: r.units cs
termination_by text.length
decreasing_by
  all_goals
    simp only [List.length_drop, List.length_cons]
    omega

@[simp] theorem flatten_spanUnits (r : MaskRules) (span : List Char) :
    (r.spanUnits span).flatten = r.value span := by
  unfold spanUnits value
  cases r.masks.get? (String.ofList span) <;> simp

@[simp] theorem flatten_units (r : MaskRules) (text : List Char) :
    (r.units text).flatten = r.resolve text := by
  fun_induction resolve r text with
  | case1 => rw [units]; rfl
  | case2 c cs begins place near ih =>
      rw [units, if_pos begins, if_pos near, List.flatten_append, flatten_spanUnits, ih]
  | case3 c cs begins place far ih =>
      rw [units, if_pos begins, if_neg far, List.flatten_append, flatten_letters, ih]
  | case4 c cs plain ih =>
      rw [units, if_neg plain, List.flatten_cons, ih]
      rfl

@[simp] theorem units_nil (r : MaskRules) : r.units [] = [] := by simp [units]

theorem units_cons {r : MaskRules} {c : Char} {cs : List Char}
    (h : ¬ maskPrefix <+: c :: cs) : r.units (c :: cs) = [c] :: r.units cs := by
  rw [units, if_neg (by simpa using h)]

theorem units_append_of_notMem {r : MaskRules} {plain : List Char} (h : '$' ∉ plain)
    (cs : List Char) : r.units (plain ++ cs) = letters plain ++ r.units cs := by
  induction plain with
  | nil => rfl
  | cons c plain ih =>
      have other : '$' ≠ c := fun same => h (same ▸ List.mem_cons_self)
      have literal : ¬ maskPrefix <+: c :: (plain ++ cs) := by
        rw [maskPrefix_eq, List.cons_prefix_cons]
        exact fun begins => other begins.1
      rw [List.cons_append, units_cons literal, ih (fun mem => h (List.mem_cons_of_mem c mem))]
      rfl

theorem units_of_begins {r : MaskRules} {text : List Char} (begins : maskPrefix <+: text) :
    r.units text =
      if text.idxOf ']' ≤ r.maxSpan ∧ text.idxOf ']' < text.length then
        r.spanUnits (text.take (text.idxOf ']' + 1)) ++ r.units (text.drop (text.idxOf ']' + 1))
      else letters (text.take (r.maxSpan + 1)) ++ r.units (text.drop (r.maxSpan + 1)) := by
  cases text with
  | nil => simp [maskPrefix_eq] at begins
  | cons c cs => rw [units, if_pos (by simpa using begins)]

section Spans

variable {r : MaskRules} {span : List Char}

/-- A placeholder that is closed within reach. -/
theorem units_closed (begins : maskPrefix <+: span) (opened : ']' ∉ span)
    (reach : span.length ≤ r.maxSpan) (cs : List Char) :
    r.units (span ++ ']' :: cs) = r.spanUnits (span ++ [']']) ++ r.units cs := by
  have place : (span ++ ']' :: cs).idxOf ']' = span.length := by
    rw [List.idxOf_append, if_neg opened, List.idxOf_cons_self, Nat.zero_add]
  have cut : span ++ ']' :: cs = (span ++ [']']) ++ cs := by simp
  rw [units_of_begins (begins.trans (List.prefix_append _ _)), place,
    if_pos ⟨reach, by simp⟩, cut, List.take_left' (by simp), List.drop_left' (by simp)]

/-- What is out of reach of a closing bracket. -/
theorem units_overlong (begins : maskPrefix <+: span) (opened : ']' ∉ span)
    (long : span.length = r.maxSpan + 1) (cs : List Char) :
    r.units (span ++ cs) = letters span ++ r.units cs := by
  have far : ¬ (span ++ cs).idxOf ']' ≤ r.maxSpan := by
    rw [List.idxOf_append, if_neg opened]
    omega
  rw [units_of_begins (begins.trans (List.prefix_append _ _)), if_neg (fun near => far near.1),
    List.take_left' long, List.drop_left' long]

/-- A placeholder that the end of the text leaves open. -/
theorem units_unclosed (begins : maskPrefix <+: span) (opened : ']' ∉ span)
    (reach : span.length ≤ r.maxSpan) : r.units span = letters span := by
  have absent : ¬ span.idxOf ']' < span.length := by
    rw [List.idxOf_lt_length_iff]
    exact opened
  rw [units_of_begins begins, if_neg (fun near => absent near.2),
    List.take_of_length_le (by omega), List.drop_of_length_le (by omega), units_nil,
    List.append_nil]

end Spans

theorem units_of_isEmpty {r : MaskRules} (h : r.masks.isEmpty) (text : List Char) :
    r.units text = letters text := by
  have span_eq (span : List Char) : r.spanUnits span = letters span := by
    have none : r.masks.entries = [] := by simpa [MaskMap.isEmpty] using h
    simp [spanUnits, MaskMap.get?, none]
  fun_induction units r text with
  | case1 => rfl
  | case2 c cs begins place near ih =>
      rw [ih, span_eq, ← letters_append, List.take_append_drop]
  | case3 c cs begins place far ih => rw [ih, ← letters_append, List.take_append_drop]
  | case4 c cs plain ih =>
      rw [ih]
      rfl

end MaskRules

end NoteAssistant
