import NoteAssistant.Proofs.Mask.Resolution

/-! # The scanner is in step with the text

What a scanner holds back is always the beginning of a placeholder
(`MaskState.Holds`), and nothing is lost or decided too early: what has been released
and the resolution of what is held back, together with the text to come, make up the
resolution of the whole (`MaskRules.push_resolves`).
-/

namespace NoteAssistant

/-- What a scanner with these rules may hold back: a proper part of the beginning of a
    placeholder, or a placeholder that is not closed yet. Without placeholders to look
    for it holds nothing back. -/
def MaskState.Holds (r : MaskRules) : MaskState → Prop
  | .idle => True
  | .suspect held =>
    r.masks.isEmpty = false ∧ held ≠ [] ∧ held <+: maskPrefix ∧ held ≠ maskPrefix
  | .confirmed held =>
    r.masks.isEmpty = false ∧ maskPrefix <+: held ∧ ']' ∉ held
      ∧ held.length ≤ max maskPrefix.length r.maxSpan

namespace MaskState.Holds

theorem held_eq_nil {r : MaskRules} {s : MaskState} (h : s.Holds r) (none : r.masks.isEmpty) :
    s.held = [] := by
  cases s with
  | idle => rfl
  | suspect held => simp [MaskState.Holds, none] at h
  | confirmed held => simp [MaskState.Holds, none] at h

end MaskState.Holds

namespace MaskRules

theorem length_maskPrefix : maskPrefix.length = 8 := by decide +kernel

theorem bracket_notMem_maskPrefix : ']' ∉ maskPrefix := by decide +kernel

theorem dollar_notMem_tail {c : Char} {tail : List Char} (h : c :: tail <+: maskPrefix) :
    c = '$' ∧ '$' ∉ tail := by
  rw [maskPrefix_eq, List.cons_prefix_cons] at h
  refine ⟨h.1, fun mem => ?_⟩
  have absent : '$' ∉ "hidden[".toList := by decide +kernel
  exact absent (h.2.subset mem)

theorem start_holds {r : MaskRules} (some : r.masks.isEmpty = false) (c : Char) :
    (start c).1.Holds r := by
  unfold start
  split
  case isTrue dollar =>
    subst dollar
    refine ⟨some, by simp, ?_, ?_⟩
    · rw [maskPrefix_eq, List.cons_prefix_cons]
      exact ⟨rfl, List.nil_prefix⟩
    · rw [maskPrefix_eq]
      decide +kernel
  case isFalse => trivial

theorem step_holds {r : MaskRules} {s : MaskState} (some : r.masks.isEmpty = false)
    (h : s.Holds r) (c : Char) : (r.step s c).1.Holds r := by
  cases s with
  | idle => exact start_holds some c
  | suspect held =>
      simp only [step]
      split
      case isTrue complete =>
        rw [complete]
        exact ⟨some, List.prefix_rfl, bracket_notMem_maskPrefix, Nat.le_max_left _ _⟩
      case isFalse incomplete =>
        split
        case isTrue growing =>
          rw [Bool.and_eq_true, List.isPrefixOf_iff_prefix] at growing
          exact ⟨some, by simp, growing.1, incomplete⟩
        case isFalse => exact start_holds some c
  | confirmed held =>
      obtain ⟨_, begins, opened, _⟩ := h
      simp only [step]
      split
      case isTrue => trivial
      case isFalse other =>
        split
        case isTrue => trivial
        case isFalse short =>
          refine ⟨some, begins.trans (List.prefix_append _ _), ?_, ?_⟩
          · simp only [List.mem_append, List.mem_singleton]
            exact fun mem => mem.elim opened fun same => other same.symm
          · omega

theorem scan_holds {r : MaskRules} (some : r.masks.isEmpty = false) {s : MaskState}
    (h : s.Holds r) (text : List Char) : (r.scan s text).1.Holds r := by
  induction text generalizing s with
  | nil => exact h
  | cons c cs ih => exact ih (step_holds some h c)

theorem push_holds {r : MaskRules} {s : MaskState} (h : s.Holds r) (text : List Char) :
    (r.push s text).1.Holds r := by
  unfold push
  split
  case isTrue => exact h
  case isFalse some => exact scan_holds (by simpa using some) h text

/-- Settings under which a placeholder is recognized by its beginning, and then searched
    for its end. -/
structure Roomy (r : MaskRules) : Prop where
  wide : 8 ≤ r.lookahead
  deep : r.lookahead < r.maxSpan

section Resolution

variable {r : MaskRules}

/-- A beginning that goes on like no placeholder is plain text. -/
theorem units_given_up {held : List Char} (part : held <+: maskPrefix) {c : Char}
    (other : ¬ held ++ [c] <+: maskPrefix) (proper : held ≠ maskPrefix) (cs : List Char) :
    r.units (held ++ c :: cs) = letters held ++ r.units (c :: cs) := by
  cases held with
  | nil => rfl
  | cons d tail =>
      obtain ⟨_, plain⟩ := dollar_notMem_tail part
      have shorter : (d :: tail).length < maskPrefix.length :=
        Nat.lt_of_le_of_ne part.length_le fun same => proper (part.eq_of_length same)
      have literal : ¬ maskPrefix <+: d :: (tail ++ c :: cs) := by
        intro begins
        apply other
        have front : (d :: tail) ++ [c] <+: d :: (tail ++ c :: cs) := by simp
        refine List.prefix_of_prefix_length_le front begins ?_
        rw [List.length_append, List.length_singleton]
        exact shorter
      rw [List.cons_append, units_cons literal, units_append_of_notMem plain]
      rfl

/-- A beginning that the end of the text leaves incomplete is plain text. -/
theorem units_part {held : List Char} (part : held <+: maskPrefix)
    (proper : held ≠ maskPrefix) : r.units held = letters held := by
  cases held with
  | nil => simp
  | cons d tail =>
      have literal : ¬ maskPrefix <+: d :: tail := fun begins =>
        proper (part.eq_of_length (Nat.le_antisymm part.length_le begins.length_le))
      have rest := units_append_of_notMem (r := r) (dollar_notMem_tail part).2 []
      simp only [List.append_nil, units_nil] at rest
      rw [units_cons literal, rest]
      rfl

theorem start_units (c : Char) (cs : List Char) :
    letters (start c).2 ++ r.units ((start c).1.held ++ cs) = r.units (c :: cs) := by
  unfold start
  split
  case isTrue dollar => simp [MaskState.held, dollar]
  case isFalse other =>
    have literal : ¬ maskPrefix <+: c :: cs := by
      rw [maskPrefix_eq, List.cons_prefix_cons]
      exact fun begins => other begins.1.symm
    rw [units_cons literal]
    rfl

/-- A release by which a scanner comes from one state to another on its way through a text:
    whatever follows, it is what becomes of the beginning. -/
def Releases (r : MaskRules) (s : MaskState) (text : List Char) (t : MaskState)
    (released : List Char) : Prop :=
  ∃ us : List (List Char), us.flatten = released ∧
    ∀ cs, us ++ r.units (t.held ++ cs) = r.units (s.held ++ text ++ cs)

theorem step_units (roomy : r.Roomy) {s : MaskState} (h : s.Holds r) (c : Char) :
    r.Releases s [c] (r.step s c).1 (r.step s c).2 := by
  have := roomy.wide
  have := roomy.deep
  cases s with
  | idle => exact ⟨letters (start c).2, flatten_letters _, start_units c⟩
  | suspect held =>
      obtain ⟨_, _, part, proper⟩ := h
      simp only [step]
      split
      case isTrue => exact ⟨[], rfl, fun cs => rfl⟩
      case isFalse incomplete =>
        split
        case isTrue => exact ⟨[], rfl, fun cs => rfl⟩
        case isFalse stuck =>
          have other : ¬ held ++ [c] <+: maskPrefix := by
            intro longer
            have shorter : (held ++ [c]).length < maskPrefix.length :=
              Nat.lt_of_le_of_ne longer.length_le fun same =>
                incomplete (longer.eq_of_length same)
            rw [length_maskPrefix] at shorter
            apply stuck
            rw [Bool.and_eq_true, List.isPrefixOf_iff_prefix, decide_eq_true_eq]
            exact ⟨longer, by omega⟩
          refine ⟨letters (held ++ (start c).2), flatten_letters _, fun cs => ?_⟩
          calc letters (held ++ (start c).2) ++ r.units ((start c).1.held ++ cs)
              = letters held ++ r.units (c :: cs) := by
                rw [letters_append, List.append_assoc, start_units]
            _ = r.units (held ++ c :: cs) := (units_given_up part other proper cs).symm
            _ = r.units (held ++ [c] ++ cs) := by simp
  | confirmed held =>
      obtain ⟨_, begins, opened, reach⟩ := h
      have reach : held.length ≤ r.maxSpan := by
        rw [length_maskPrefix] at reach
        omega
      simp only [step]
      split
      case isTrue closing =>
        subst closing
        refine ⟨r.spanUnits (held ++ [']']), flatten_spanUnits r _, fun cs => ?_⟩
        have closed := units_closed begins opened reach cs
        simpa [MaskState.held] using closed.symm
      case isFalse other =>
        have still : ']' ∉ held ++ [c] := by
          simp only [List.mem_append, List.mem_singleton]
          exact fun mem => mem.elim opened fun same => other same.symm
        have longer : maskPrefix <+: held ++ [c] := begins.trans (List.prefix_append _ _)
        split
        case isTrue long =>
          have far : (held ++ [c]).length = r.maxSpan + 1 := by
            simp only [List.length_append, List.length_singleton] at long ⊢
            omega
          exact ⟨_, flatten_letters _, fun cs => (units_overlong longer still far cs).symm⟩
        case isFalse => exact ⟨[], rfl, fun cs => rfl⟩

theorem scan_units (roomy : r.Roomy) (some : r.masks.isEmpty = false) {s : MaskState}
    (h : s.Holds r) (text : List Char) :
    r.Releases s text (r.scan s text).1 (r.scan s text).2 := by
  induction text generalizing s with
  | nil => exact ⟨[], rfl, fun cs => by simp [scan]⟩
  | cons c text ih =>
      obtain ⟨us, released, first⟩ := step_units roomy h c
      obtain ⟨vs, rest, later⟩ := ih (step_holds some h c)
      refine ⟨us ++ vs, ?_, fun cs => ?_⟩
      · rw [List.flatten_append, released, rest]
        rfl
      · have whole := first (text ++ cs)
        simp only [List.append_assoc, List.singleton_append] at later whole ⊢
        rw [scan, later, whole]
        rfl

/-- A piece of text keeps the scanner in step, whatever comes after it. -/
theorem push_units (roomy : r.Roomy) {s : MaskState} (h : s.Holds r) (text : List Char) :
    r.Releases s text (r.push s text).1 (r.push s text).2 := by
  unfold push
  split
  case isTrue none =>
    refine ⟨letters text, flatten_letters text, fun cs => ?_⟩
    simp [h.held_eq_nil none, units_of_isEmpty none]
  case isFalse some => exact scan_units roomy (by simpa using some) h text

theorem push_resolves (roomy : r.Roomy) {s : MaskState} (h : s.Holds r) (text cs : List Char) :
    (r.push s text).2 ++ r.resolve ((r.push s text).1.held ++ cs)
      = r.resolve (s.held ++ text ++ cs) := by
  obtain ⟨us, released, whole⟩ := push_units roomy h text
  simpa [released] using congrArg List.flatten (whole cs)

/-- What is held back at the end is plain text. -/
theorem units_held (roomy : r.Roomy) {s : MaskState} (h : s.Holds r) :
    r.units s.held = letters s.held := by
  have := roomy.wide
  have := roomy.deep
  cases s with
  | idle => simp [MaskState.held]
  | suspect held =>
      obtain ⟨_, _, part, proper⟩ := h
      exact units_part part proper
  | confirmed held =>
      obtain ⟨_, begins, opened, reach⟩ := h
      rw [length_maskPrefix] at reach
      have within : held.length ≤ r.maxSpan := by omega
      exact units_unclosed begins opened within

end Resolution

end MaskRules

end NoteAssistant
