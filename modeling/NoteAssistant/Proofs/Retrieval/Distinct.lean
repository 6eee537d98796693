import Mathlib.Data.List.Nodup
import NoteAssistant.Retrieval.Distinct

/-! # Laws of first occurrences -/

namespace NoteAssistant

variable {α : Type} (key : α → String) {items : List α}

theorem mem_of_mem_distinctBy {a : α} (h : a ∈ distinctBy key items) : a ∈ items := by
  induction items with
  | nil => exact h
  | cons b rest ih =>
      rcases List.mem_cons.mp h with rfl | later
      · exact List.mem_cons_self
      · exact List.mem_cons_of_mem b (ih (List.mem_of_mem_filter later))

theorem map_distinctBy (items : List α) :
    (distinctBy key items).map key = distinctBy id (items.map key) := by
  induction items with
  | nil => rfl
  | cons a rest ih =>
      simp only [distinctBy, List.map_cons, ← ih, List.filter_map, id, Function.comp_def]

theorem distinctBy_map {β : Type} (f : β → α) (items : List β) :
    distinctBy key (items.map f) = (distinctBy (fun b => key (f b)) items).map f := by
  induction items with
  | nil => rfl
  | cons b rest ih =>
      simp only [distinctBy, List.map_cons, ih, List.filter_map, Function.comp_def]

theorem mem_distinctBy_id {key : String} {keys : List String} :
    key ∈ distinctBy id keys ↔ key ∈ keys := by
  constructor
  · exact mem_of_mem_distinctBy id
  · intro h
    induction keys with
    | nil => exact h
    | cons k rest ih =>
        by_cases first : key = k
        · exact first ▸ List.mem_cons_self
        · have later : key ∈ rest := (List.mem_cons.mp h).resolve_left first
          exact List.mem_cons_of_mem k (List.mem_filter.mpr ⟨ih later, by simpa using first⟩)

theorem nodup_distinctBy_id (keys : List String) : (distinctBy id keys).Nodup := by
  induction keys with
  | nil => exact List.nodup_nil
  | cons k rest ih =>
      refine List.nodup_cons.mpr ⟨fun again => ?_, ih.filter _⟩
      simpa using (List.mem_filter.mp again).2

/-- What is kept is in the order of its first occurrences. -/
theorem pairwise_idxOf_distinctBy_id (keys : List String) :
    (distinctBy id keys).Pairwise fun a b => keys.idxOf a < keys.idxOf b := by
  induction keys with
  | nil => exact .nil
  | cons k rest ih =>
      have other {a : String} (mem : a ∈ (distinctBy id rest).filter fun b => id b ≠ id k) :
          (k :: rest).idxOf a = rest.idxOf a + 1 := by
        have apart : a ≠ k := by simpa using List.of_mem_filter mem
        exact List.idxOf_cons_ne rest apart.symm
      refine List.pairwise_cons.mpr ⟨fun b mem => ?_, ?_⟩
      · rw [List.idxOf_cons_self, other mem]
        exact Nat.succ_pos _
      · refine List.Pairwise.imp_of_mem (fun ha hb before => ?_) (ih.filter _)
        rw [other ha, other hb]
        exact Nat.succ_lt_succ before

theorem distinctBy_sublist (items : List α) : (distinctBy key items).Sublist items := by
  induction items with
  | nil => exact .slnil
  | cons a rest ih => exact (List.filter_sublist.trans ih).cons_cons a

/-- Of the items with one key the first one is kept. -/
theorem exists_mem_distinctBy {r : α → α → Prop} (sorted : items.Pairwise r) {a : α}
    (h : a ∈ items) : ∃ b ∈ distinctBy key items, key b = key a ∧ (b = a ∨ r b a) := by
  induction items with
  | nil => cases h
  | cons first rest ih =>
      obtain ⟨before, sorted⟩ := List.pairwise_cons.mp sorted
      rcases List.mem_cons.mp h with rfl | later
      · exact ⟨a, List.mem_cons_self, rfl, .inl rfl⟩
      · by_cases same : key first = key a
        · exact ⟨first, List.mem_cons_self, same, .inr (before a later)⟩
        · obtain ⟨b, mem, key_eq, place⟩ := ih sorted later
          have fresh : key b ≠ key first := fun again => same (again.symm.trans key_eq)
          refine ⟨b, List.mem_cons_of_mem _ (List.mem_filter.mpr ⟨mem, ?_⟩), key_eq, place⟩
          simpa using fresh

theorem distinctBy_prefix (items more : List α) :
    distinctBy key items <+: distinctBy key (items ++ more) := by
  induction items with
  | nil => exact List.nil_prefix
  | cons a rest ih => exact List.cons_prefix_cons.mpr ⟨rfl, ih.filter _⟩

/-- Among the first items nothing but a repetition of an earlier key is removed. -/
theorem key_mem_take_distinctBy {a : α} {n : Nat} (h : a ∈ items.take n) :
    key a ∈ ((distinctBy key items).take n).map key := by
  have front : distinctBy key (items.take n) <+: (distinctBy key items).take n := by
    rw [List.prefix_take_iff]
    constructor
    · have whole := distinctBy_prefix key (items.take n) (items.drop n)
      rwa [List.take_append_drop] at whole
    · exact Nat.le_trans (distinctBy_sublist key _).length_le (List.length_take_le n items)
  have kept : key a ∈ (distinctBy key (items.take n)).map key := by
    rw [map_distinctBy, mem_distinctBy_id]
    exact List.mem_map_of_mem h
  exact (front.map key).subset kept

theorem nodup_map_distinctBy (items : List α) : ((distinctBy key items).map key).Nodup := by
  rw [map_distinctBy]
  exact nodup_distinctBy_id _

end NoteAssistant
