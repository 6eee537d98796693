import Mathlib.Data.List.Nodup
import NoteAssistant.Proofs.Json.Strings

/-! # Reading the fields of records

Fields are read from an object by their names, or from an array by their places. Which fields there
are is settled first (`fields_iff`); what a field that may be missing amounts to is the same for
both (`withDefault_iff`).
-/

namespace NoteAssistant.Json

/-- The text is the name of one member at most. -/
def Once (members : List (String × Tree)) (name : String) : Prop :=
  (members.map Prod.fst).count name ≤ 1

instance (members : List (String × Tree)) (name : String) : Decidable (Once members name) :=
  inferInstanceAs (Decidable ((members.map Prod.fst).count name ≤ 1))

/-- A record has a value under a name, or it leaves the name out and the value is the default. -/
inductive Holds {α : Type} (members : List (String × Tree)) (name : String) (image : α → Tree)
    (default : α) : α → Prop where
  | given {a : α} (mem : (name, image a) ∈ members) : Holds members name image default a
  | absent (out : ∀ t, (name, t) ∉ members) : Holds members name image default default

/-- The members that a tree gives for the names of some fields: those of an object without
    repetition, or the items of an array under the first names. -/
inductive Gives (names : List String) : Tree → List (String × Tree) → Prop where
  | object {members : List (String × Tree)} (once : ∀ name ∈ names, Once members name) :
      Gives names (.record members) members
  | array {items : List Tree} (few : items.length ≤ names.length) :
      Gives names (.array items) (names.zip items)

open Reading (fields Fields)

variable {α : Type} {members : List (String × Tree)} {names : List String} {name : String}
  {level : Nat} {t : Tree} {f : Fields}

/-- A name that stands once finds the one value under it. -/
theorem lookup_eq_some_iff_mem (once : Once members name) :
    members.lookup name = some t ↔ (name, t) ∈ members := by
  unfold Once at once
  induction members with
  | nil => simp
  | cons first rest ih =>
      obtain ⟨other, u⟩ := first
      rw [List.map_cons, List.count_cons] at once
      rw [List.lookup_cons, List.mem_cons, Prod.mk.injEq]
      by_cases same : name = other
      · have out : name ∉ rest.map Prod.fst := by
          rw [← List.count_eq_zero]
          simp [same] at once ⊢
          omega
        have out : (name, t) ∉ rest := fun mem => out (List.mem_map_of_mem mem)
        simp [same ▸ out, same, eq_comm]
      · rw [beq_eq_false_iff_ne.mpr same]
        simp [same, ih (by omega)]

theorem lookup_filter (known : name ∈ names) :
    (members.filter fun (name, _) => names.contains name).lookup name = members.lookup name := by
  induction members with
  | nil => rfl
  | cons first rest ih =>
      obtain ⟨other, u⟩ := first
      rw [List.lookup_cons]
      by_cases same : name = other
      · simp [← same, known]
      · have apart : (name == other) = false := beq_eq_false_iff_ne.mpr same
        rw [apart, List.filter_cons]
        dsimp only
        split
        · rw [List.lookup_cons, apart]
          exact ih
        · exact ih

theorem nodup_filter_iff :
    ((members.filter fun (name, _) => names.contains name).map Prod.fst).Nodup ↔
      ∀ name ∈ names, Once members name := by
  have names_filter : (members.filter fun (name, _) => names.contains name).map Prod.fst =
      (members.map Prod.fst).filter (names.contains ·) := by
    rw [List.filter_map]
    rfl
  rw [names_filter, List.nodup_iff_count_le_one]
  constructor
  · intro distinct name known
    have once := distinct name
    rwa [List.count_filter (by simpa using known)] at once
  · intro once name
    by_cases known : name ∈ names
    · rw [List.count_filter (by simpa using known)]
      exact once name known
    · rw [List.count_eq_zero.mpr (by simp [known])]
      exact Nat.zero_le 1

theorem mapM_named_iff {tagged : List (Option String × Tree)} :
    tagged.mapM (fun (name, t) => name.map (·, t)) = some members ↔
      tagged = members.map fun (name, t) => (some name, t) := by
  induction tagged generalizing members with
  | nil => cases members <;> simp
  | cons first rest ih =>
      obtain ⟨name, t⟩ := first
      rw [List.mapM_cons]
      simp only [Option.bind_eq_bind, Option.bind_eq_some_iff, Option.map_eq_some_iff, ih]
      rw [eq_comm, List.map_eq_cons_iff]
      grind

/-- The members that are given stand once, for objects as for arrays. -/
theorem Gives.once (distinct : names.Nodup) (gives : Gives names t members)
    (known : name ∈ names) : Once members name := by
  cases gives with
  | object once => exact once name known
  | @array items few =>
      have first : (names.zip items).map Prod.fst = names.take (min names.length items.length) := by
        rw [List.zip_eq_zip_take_min, List.map_fst_zip (by simp)]
      rw [Once, first]
      exact List.nodup_iff_count_le_one.mp (distinct.sublist (List.take_sublist _ _)) name

theorem fields_eq_some (read : fields names (level + 1) t = some f) :
    ∃ members, Gives names t members ∧ f.level = level ∧
      ∀ name ∈ names, f.present.lookup name = members.lookup name := by
  cases t with
  | array items =>
      rw [fields] at read
      split at read
      case isTrue few =>
        cases read
        exact ⟨_, .array few, rfl, fun _ _ => rfl⟩
      case isFalse => cases read
  | object tagged =>
      rw [fields] at read
      obtain ⟨members, named, read⟩ := Option.bind_eq_some_iff.mp read
      rw [mapM_named_iff.mp named]
      dsimp only at read
      split at read
      case isTrue distinct =>
        cases read
        exact ⟨members, .object (nodup_filter_iff.mp distinct), rfl, fun _ => lookup_filter⟩
      case isFalse => cases read
  | _ => cases read

theorem fields_record (once : ∀ name ∈ names, Once members name) :
    fields names (level + 1) (.record members) =
      some ⟨false, members.filter fun (name, _) => names.contains name, level⟩ := by
  rw [Tree.record, fields, mapM_named_iff.mpr rfl]
  exact if_pos (nodup_filter_iff.mpr once)

theorem fields_of_gives (gives : Gives names t members) :
    ∃ f, fields names (level + 1) t = some f ∧ f.level = level ∧
      ∀ name ∈ names, f.present.lookup name = members.lookup name := by
  cases gives with
  | array few => exact ⟨⟨true, _, level⟩, if_pos few, rfl, fun _ _ => rfl⟩
  | object once => exact ⟨_, fields_record once, rfl, fun _ => lookup_filter⟩

theorem withDefault_iff (once : Once members name)
    (found : f.present.lookup name = members.lookup name) {read : Reading α} {image : α → Tree}
    {default a : α} (reads : ∀ t a, read f.level t = some a ↔ t = image a) :
    f.withDefault name read default = some a ↔ Holds members name image default a := by
  unfold Fields.withDefault
  rw [found]
  cases there : members.lookup name with
  | none =>
      have out (t : Tree) : (name, t) ∉ members := fun mem => by
        rw [(lookup_eq_some_iff_mem once).mpr mem] at there
        cases there
      constructor
      · intro same
        cases same
        exact .absent out
      · rintro (mem | _)
        · exact absurd mem (out _)
        · rfl
  | some t =>
      have mem := (lookup_eq_some_iff_mem once).mp there
      rw [reads]
      constructor
      · rintro rfl
        exact .given mem
      · rintro (other | out)
        · rw [(lookup_eq_some_iff_mem once).mpr other] at there
          exact (Option.some.inj there).symm
        · exact absurd mem (out t)

end NoteAssistant.Json
