import Mathlib.Data.List.Infix
import NoteAssistant.Text.Search

/-! # Laws of searching

What a beginning, an occurrence and a cut of a text are in terms of prefixes and infixes.
-/

namespace NoteAssistant.Text

theorem after?_eq (p s : List Char) :
    after? p s = if p.isPrefixOf s then some (s.drop p.length) else none := by
  fun_induction after? p s with
  | case1 s => simp
  | case2 => simp
  | case3 p ps s ih => simp [ih]
  | case4 p ps c s other => simp [other]

theorem startsWith_iff {p s : List Char} : startsWith p s = true ↔ p <+: s := by
  rw [startsWith, after?_eq]
  split <;> simp_all

variable {mark s : List Char}

theorem eq_append_of_cut? {before after : List Char} (h : cut? mark s = some (before, after)) :
    s = before ++ mark ++ after := by
  induction s generalizing before with
  | nil =>
      unfold cut? at h
      split at h
      case isTrue none =>
        obtain ⟨rfl, rfl⟩ : [] = before ∧ [] = after := by simpa using h
        rw [none]
        rfl
      case isFalse => cases h
  | cons c s ih =>
      unfold cut? at h
      split at h
      case h_1 r here =>
        obtain ⟨rfl, rfl⟩ : [] = before ∧ r = after := by simpa using h
        exact eq_append_of_after? here
      case h_2 =>
        obtain ⟨⟨b, r⟩, later, same⟩ := Option.map_eq_some_iff.mp h
        obtain ⟨rfl, rfl⟩ : c :: b = before ∧ r = after := by simpa using same
        rw [ih later]
        rfl

theorem contains_iff : contains mark s = true ↔ mark <:+: s := by
  constructor
  · intro h
    obtain ⟨⟨before, after⟩, cut⟩ := Option.isSome_iff_exists.mp h
    exact ⟨before, after, (eq_append_of_cut? cut).symm⟩
  · intro h
    induction s with
    | nil =>
        obtain rfl : mark = [] := List.infix_nil.mp h
        rfl
    | cons c s ih =>
        unfold contains cut?
        split
        case h_1 => rfl
        case h_2 none =>
          rcases List.infix_cons_iff.mp h with here | later
          · rw [after?_eq, if_pos (by simpa using here)] at none
            cases none
          · rw [Option.isSome_map]
            exact ih later

theorem before_le_of_cut? {before after b r : List Char} (h : cut? mark s = some (before, after))
    (other : s = b ++ mark ++ r) : before.length ≤ b.length := by
  induction s generalizing before b with
  | nil =>
      have whole := congrArg List.length (eq_append_of_cut? h)
      simp only [List.length_nil, List.length_append] at whole
      omega
  | cons c s ih =>
      unfold cut? at h
      split at h
      case h_1 =>
        obtain ⟨rfl, -⟩ : [] = before ∧ _ := by simpa using h
        exact Nat.zero_le _
      case h_2 notHere =>
        obtain ⟨⟨before, after⟩, later, same⟩ := Option.map_eq_some_iff.mp h
        cases same
        cases b with
        | nil =>
            rw [other, List.nil_append, after?_append] at notHere
            cases notHere
        | cons d b =>
            obtain ⟨-, rest⟩ := List.cons.inj other
            exact Nat.succ_le_succ (ih later rest)

/-- A text is cut at the first place where the mark stands. -/
theorem cut?_eq_some_iff {before after : List Char} :
    cut? mark s = some (before, after) ↔
      s = before ++ mark ++ after ∧ ∀ b r, s = b ++ mark ++ r → before.length ≤ b.length := by
  constructor
  · intro h
    exact ⟨eq_append_of_cut? h, fun b r other => before_le_of_cut? h other⟩
  · rintro ⟨whole, first⟩
    have found : (cut? mark s).isSome = true := contains_iff.mpr ⟨before, after, whole.symm⟩
    obtain ⟨⟨b, r⟩, cut⟩ := Option.isSome_iff_exists.mp found
    have other := eq_append_of_cut? cut
    have sameLength : b.length = before.length :=
      Nat.le_antisymm (before_le_of_cut? cut whole) (first b r other)
    obtain ⟨sameBefore, rfl⟩ := List.append_inj (other.symm.trans whole) (by simp [sameLength])
    obtain rfl : b = before := List.append_cancel_right sameBefore
    exact cut

/-- A cut is made at the first tail that begins with the mark. -/
theorem cut?_tails : (cut? mark s).map (mark ++ ·.2) = s.tails.find? (mark.isPrefixOf ·) := by
  induction s with
  | nil =>
      cases mark <;> rfl
  | cons c s ih =>
      unfold cut?
      rw [List.tails_cons, List.find?_cons, after?_eq]
      cases here : mark.isPrefixOf (c :: s) with
      | true =>
          obtain ⟨rest, whole⟩ := List.isPrefixOf_iff_prefix.mp here
          simp [← whole]
      | false =>
          rw [← ih]
          cases cut? mark s <;> rfl

end NoteAssistant.Text
