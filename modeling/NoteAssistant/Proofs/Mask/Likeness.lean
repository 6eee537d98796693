import NoteAssistant.Mask.Scanner

/-! # Placeholders with other values

Two maps of the same placeholders make the scanner hold back and release text in the same
way, and the texts it releases differ in nothing but the values.
-/

namespace NoteAssistant

namespace MaskMap

/-- Maps of the same placeholders. -/
def SameKeys (m n : MaskMap) : Prop := ∀ p, (m.get? p).isSome = (n.get? p).isSome

/-- Texts that are the same but for values of placeholders, of which each map has its own. -/
inductive Agree (m n : MaskMap) : List Char → List Char → Prop where
  | nil : Agree m n [] []
  | plain (c : Char) {s t : List Char} : Agree m n s t → Agree m n (c :: s) (c :: t)
  | value {p x y : String} (left : m.get? p = some x) (right : n.get? p = some y)
      {s t : List Char} : Agree m n s t → Agree m n (x.toList ++ s) (y.toList ++ t)

namespace Agree

variable {m n : MaskMap}

theorem refl (s : List Char) : Agree m n s s := by
  induction s with
  | nil => exact .nil
  | cons c s ih => exact .plain c ih

theorem append {s t s' t' : List Char} (first : Agree m n s t) (rest : Agree m n s' t') :
    Agree m n (s ++ s') (t ++ t') := by
  induction first with
  | nil => exact rest
  | plain c _ ih => exact .plain c ih
  | value left right _ ih =>
      rw [List.append_assoc, List.append_assoc]
      exact .value left right ih

end Agree

theorem isSome_get? (m : MaskMap) (p : String) :
    (m.get? p).isSome = true ↔ p ∈ m.entries.map (·.1) := by
  rw [get?, List.lookup_isSome_iff, List.mem_map]
  simp only [beq_iff_eq, eq_comm (a := p)]

theorem isEmpty_iff {m : MaskMap} : m.isEmpty = true ↔ ∀ p, (m.get? p).isSome = false := by
  have unknown : (∀ p, (m.get? p).isSome = false) ↔ m.entries.map (·.1) = [] := by
    rw [List.eq_nil_iff_forall_not_mem]
    exact forall_congr' fun p => by rw [← isSome_get?, Bool.not_eq_true]
  rw [unknown, isEmpty, List.isEmpty_iff, List.map_eq_nil_iff]

theorem SameKeys.isEmpty {m n : MaskMap} (same : m.SameKeys n) : m.isEmpty = n.isEmpty := by
  rw [Bool.eq_iff_iff, isEmpty_iff, isEmpty_iff]
  simp only [same _]

theorem SameKeys.resolved {m n : MaskMap} (same : m.SameKeys n) (p : String) :
    m.Agree n ((m.get? p).getD p).toList ((n.get? p).getD p).toList := by
  have known := same p
  cases left : m.get? p with
  | none =>
      have right : n.get? p = none := by simpa [left] using known
      rw [right]
      exact .refl _
  | some x =>
      obtain ⟨y, right⟩ : ∃ y, n.get? p = some y := by
        simpa [left, Option.isSome_iff_exists] using known.symm
      rw [right]
      simpa using Agree.value left right .nil

theorem mem_insert {m : MaskMap} {text value p : String} :
    p ∈ (m.insert text value).entries.map (·.1) ↔
      placeholder text = p ∨ p ∈ m.entries.map (·.1) := by
  by_cases here : placeholder text = p
  · simp [insert, here]
  · have other : p ≠ placeholder text := Ne.symm here
    simp [insert, other, here]

theorem mem_ofEntries {entries : List (String × String)} {p : String} :
    p ∈ (ofEntries entries).entries.map (·.1) ↔
      ∃ text ∈ entries.map (·.1), placeholder text = p := by
  have from_map (m : MaskMap) :
      p ∈ (entries.foldl (fun m e => m.insert e.1 e.2) m).entries.map (·.1) ↔
        (∃ text ∈ entries.map (·.1), placeholder text = p) ∨ p ∈ m.entries.map (·.1) := by
    induction entries generalizing m with
    | nil => simp
    | cons e rest ih =>
        simp only [List.foldl_cons, ih, mem_insert, List.map_cons, List.mem_cons,
          exists_eq_or_imp, or_assoc]
        exact or_left_comm
  change p ∈ (entries.foldl (fun m e => m.insert e.1 e.2) empty).entries.map (·.1) ↔ _
  rw [from_map]
  simp [empty]

/-- The placeholders of a map depend on the keys of its entries only. -/
theorem sameKeys_ofEntries {left right : List (String × String)}
    (same : ∀ key, key ∈ left.map (·.1) ↔ key ∈ right.map (·.1)) :
    (ofEntries left).SameKeys (ofEntries right) := by
  intro p
  rw [Bool.eq_iff_iff, isSome_get?, isSome_get?, mem_ofEntries, mem_ofEntries]
  simp only [same]

end MaskMap

namespace MaskRules

variable {r : MaskRules} {n : MaskMap}

def revalued (r : MaskRules) (n : MaskMap) : MaskRules := { r with masks := n }

theorem step_agree (same : r.masks.SameKeys n) (s : MaskState) (c : Char) :
    ((r.revalued n).step s c).1 = (r.step s c).1
      ∧ r.masks.Agree n (r.step s c).2 ((r.revalued n).step s c).2 := by
  cases s with
  | idle => exact ⟨rfl, .refl _⟩
  | suspect held => exact ⟨rfl, .refl _⟩
  | confirmed held =>
      by_cases closes : c = ']'
      · simp only [step, closes, if_true]
        exact ⟨trivial, same.resolved _⟩
      · simp only [step, closes, if_false]
        refine ⟨rfl, ?_⟩
        exact .refl _

theorem scan_agree (same : r.masks.SameKeys n) (s : MaskState) (text : List Char) :
    ((r.revalued n).scan s text).1 = (r.scan s text).1
      ∧ r.masks.Agree n (r.scan s text).2 ((r.revalued n).scan s text).2 := by
  induction text generalizing s with
  | nil => exact ⟨rfl, .nil⟩
  | cons c rest ih =>
      obtain ⟨state, released⟩ := step_agree same s c
      obtain ⟨last, later⟩ := ih (r.step s c).1
      simp only [scan, state]
      exact ⟨last, released.append later⟩

theorem push_agree (same : r.masks.SameKeys n) (s : MaskState) (text : List Char) :
    ((r.revalued n).push s text).1 = (r.push s text).1
      ∧ r.masks.Agree n (r.push s text).2 ((r.revalued n).push s text).2 := by
  have empty : (r.revalued n).masks.isEmpty = r.masks.isEmpty := same.isEmpty.symm
  rw [push, push, empty]
  split
  case isTrue => exact ⟨rfl, .refl text⟩
  case isFalse => exact scan_agree same s text

end MaskRules

end NoteAssistant
