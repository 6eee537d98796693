import NoteAssistant.Proofs.Mask.Likeness
import NoteAssistant.Proofs.Mask.Passing

/-! # A text that arrives in pieces

A fresh scanner takes the pieces of a text one after another and is drained in the end. What
it gives is the resolution of the whole text (`MaskRules.pieces_resolved`): neither the places
where the text is cut nor the lookahead matter, and a text without placeholders of the map
stays as it is.
-/

namespace NoteAssistant

/-- No placeholder of the map stands in the text. -/
def MaskMap.Absent (m : MaskMap) (text : List Char) : Prop :=
  ∀ key value, m.get? key = some value → ¬ key.toList <:+: text

namespace MaskRules

/-- A scanner after some pieces of text, and what it has released for them. -/
def pushAll (r : MaskRules) (s : MaskState) : List (List Char) → MaskState × List Char
  | [] => (s, [])
  | piece :: pieces =>
    let (t, released) := r.push s piece
    let (u, rest) := r.pushAll t pieces
    (u, released ++ rest)

/-- What becomes of pieces of text in a fresh scanner that is drained after them. -/
def through (r : MaskRules) (pieces : List (List Char)) : List Char :=
  (r.pushAll .idle pieces).2 ++ (r.pushAll .idle pieces).1.held

variable {r : MaskRules}

theorem pushAll_eq (r : MaskRules) (s : MaskState) (pieces : List (List Char)) :
    r.pushAll s pieces = r.push s pieces.flatten := by
  induction pieces generalizing s with
  | nil =>
      unfold push
      split <;> rfl
  | cons piece pieces ih =>
      rw [List.flatten_cons, push_append, ← ih]
      rfl

theorem through_eq_resolve (roomy : r.Roomy) (pieces : List (List Char)) :
    r.through pieces = r.resolve pieces.flatten := by
  rw [← pass_idle roomy, through, pushAll_eq]
  rfl

theorem value_congr {t : MaskRules} (masks : t.masks = r.masks) (span : List Char) :
    t.value span = r.value span := by
  rw [value, value, masks]

/-- Of the rules only the placeholders and the span count for the resolution. -/
theorem resolve_congr {t : MaskRules} (masks : t.masks = r.masks) (span : t.maxSpan = r.maxSpan)
    (text : List Char) : t.resolve text = r.resolve text := by
  fun_induction resolve r text with
  | case1 => exact resolve_nil t
  | case2 c cs begins place near ih =>
      rw [resolve, if_pos begins, if_pos (span ▸ near), ih, value_congr masks]
  | case3 c cs begins place far ih =>
      rw [resolve, if_pos begins, if_neg (span ▸ far), span, ih]
  | case4 c cs plain ih => rw [resolve, if_neg plain, ih]

theorem value_of_absent {span : List Char} (absent : r.masks.Absent span) :
    r.value span = span := by
  unfold value
  cases known : r.masks.get? (String.ofList span) with
  | none => simp
  | some v =>
      have whole : (String.ofList span).toList <:+: span := by simp
      exact absurd whole (absent _ v known)

theorem resolve_of_absent {text : List Char} (absent : r.masks.Absent text) :
    r.resolve text = text := by
  have part {a : List Char} (inside : a <:+: text) : r.masks.Absent a :=
    fun key v known within => absent key v known (within.trans inside)
  fun_induction resolve r text with
  | case1 => rfl
  | case2 c cs begins place near ih =>
      have front := part (List.take_prefix (place + 1) (c :: cs)).isInfix
      have back := (List.drop_suffix (place + 1) (c :: cs)).isInfix
      rw [value_of_absent front, ih (part back) fun inside => part (inside.trans back),
        List.take_append_drop]
  | case3 c cs begins place far ih =>
      have back := (List.drop_suffix (r.maxSpan + 1) (c :: cs)).isInfix
      rw [ih (part back) fun inside => part (inside.trans back), List.take_append_drop]
  | case4 c cs plain ih =>
      have back := (List.suffix_cons c cs).isInfix
      rw [ih (part back) fun inside => part (inside.trans back)]

/-- The scanner computes the resolution of the whole text, however the text is cut, with any
    lookahead that has room for a placeholder. -/
theorem pieces_resolved (roomy : r.Roomy) (pieces : List (List Char)) :
    r.through pieces = r.resolve pieces.flatten
      ∧ (∀ (t : MaskRules) (others : List (List Char)), t.Roomy → t.masks = r.masks →
          t.maxSpan = r.maxSpan → others.flatten = pieces.flatten →
          t.through others = r.through pieces)
      ∧ (r.masks.Absent pieces.flatten → r.through pieces = pieces.flatten) := by
  have whole := through_eq_resolve roomy pieces
  refine ⟨whole, ?_, ?_⟩
  · intro t others wide masks span same
    rw [whole, through_eq_resolve wide, same, resolve_congr masks span]
  · intro absent
    rw [whole, resolve_of_absent absent]

/-- Doubled dollar signs, a placeholder that is cut twice, a span that is too long, and one that
    the end leaves open. -/
theorem pieces_resolved_fenced :
    let r : MaskRules := ⟨.ofEntries [("u1", "Alice")], 10, 16⟩
    let t : MaskRules := { r with lookahead := 8 }
    let pieces :=
      ["$$x$$ and $$hid", "den[u1", "] $hidden[aaaaaaaaaaa] $hid"].map String.toList
    let plain := ["$hidden[", "zz] is $5"].map String.toList
    r.Roomy ∧ t.Roomy ∧ r.masks.Absent plain.flatten
      ∧ r.resolve pieces.flatten = "$$x$$ and $Alice $hidden[aaaaaaaaaaa] $hid".toList
      ∧ t.through [pieces.flatten] = r.through pieces
      ∧ r.through plain = plain.flatten := by
  intro r t pieces plain
  have roomy : r.Roomy := ⟨by decide, by decide⟩
  have narrow : t.Roomy := ⟨by decide, by decide⟩
  have absent : r.masks.Absent plain.flatten := by
    intro key value known
    have masks : r.masks = ⟨[("$hidden[u1]", "Alice")]⟩ := by decide +kernel
    have there := (MaskMap.isSome_get? r.masks key).mp (Option.isSome_of_eq_some known)
    rw [masks, List.map_singleton, List.mem_singleton] at there
    rw [there]
    decide +kernel
  have given : r.through pieces = "$$x$$ and $Alice $hidden[aaaaaaaaaaa] $hid".toList := by
    decide +kernel
  obtain ⟨whole, others, _⟩ := pieces_resolved roomy pieces
  refine ⟨roomy, narrow, absent, whole ▸ given, ?_, (pieces_resolved roomy plain).2.2 absent⟩
  exact others t [pieces.flatten] narrow rfl rfl (by simp)

end MaskRules

end NoteAssistant
