import NoteAssistant.Proofs.Json.Printing
import NoteAssistant.Proofs.Json.Records

/-! # Records that say the same

A record may be told in other ways: its members in another order, with members that no reader asks
for, without those that are `null` (`Restates`). What a reader finds under the names of its fields
stays the same (`Restates.fields`), so that a type whose readings do not notice the difference is
read back from every text of such a record (`Recovers.faithful`).
-/

namespace NoteAssistant.Json

/-- Members in their order, each told in a way that its name allows; those that are `null` may be
    left out. -/
inductive Retold (alike : String → Tree → Tree → Prop) :
    List (String × Tree) → List (String × Tree) → Prop where
  | nil : Retold alike [] []
  | kept {name : String} {t u : Tree} {members core : List (String × Tree)}
      (same : alike name t u) (later : Retold alike members core) :
      Retold alike ((name, t) :: members) ((name, u) :: core)
  | leftOut {name : String} {members core : List (String × Tree)}
      (later : Retold alike members core) : Retold alike ((name, .null) :: members) core

/-- A record with the members of another one in any order, and any members under names that are
    not known. -/
inductive Restates (names : List String) (alike : String → Tree → Tree → Prop) :
    Tree → Tree → Prop where
  | record {members core added all : List (String × Tree)} (retold : Retold alike members core)
      (unknown : ∀ m ∈ added, m.1 ∉ names) (order : all.Perm (core ++ added)) :
      Restates names alike (.record members) (.record all)

/-- What stands under each name stays as it is. -/
def Verbatim (_name : String) (t u : Tree) : Prop := u = t

/-- What stands under one name may be told in another way, and all else stays as it is. -/
inductive Within (field : String) (alike : Tree → Tree → Prop) : String → Tree → Tree → Prop where
  | verbatim {name : String} {t : Tree} : Within field alike name t t
  | restated {t u : Tree} (inner : alike t u) : Within field alike field t u

/-- One name under which nothing may be told in another way. -/
def Fixes (alike : String → Tree → Tree → Prop) (name : String) : Prop :=
  ∀ t u, alike name t u → u = t

/-- What is found under a name of the one record, and of the other one. -/
inductive Found (alike : Tree → Tree → Prop) : Option Tree → Option Tree → Prop where
  | there {t u : Tree} (same : alike t u) : Found alike (some t) (some u)
  | missing : Found alike none none
  | leftOut : Found alike (some .null) none

open Reading (fields Fields)

variable {names : List String} {name : String} {alike : String → Tree → Tree → Prop}
  {members core added all : List (String × Tree)} {t u : Tree} {f : Fields}

theorem fixes_verbatim : Fixes Verbatim name := fun _ _ same => same

theorem fixes_within {field : String} {inner : Tree → Tree → Prop} (other : name ≠ field) :
    Fixes (Within field inner) name := by
  intro t u within
  cases within with
  | verbatim => rfl
  | restated => exact absurd rfl other

/-! ## What a reader finds -/

theorem Retold.refl (self : ∀ name t, alike name t t) : Retold alike members members := by
  induction members with
  | nil => exact .nil
  | cons m members ih => exact .kept (self m.1 m.2) ih

theorem Retold.sublist (retold : Retold alike members core) :
    (core.map Prod.fst).Sublist (members.map Prod.fst) := by
  induction retold with
  | nil => exact .slnil
  | kept _ _ ih => exact .cons_cons _ ih
  | leftOut _ ih => exact .cons _ ih

theorem Retold.once (retold : Retold alike members core) (once : Once members name) :
    Once core name :=
  Nat.le_trans (retold.sublist.count_le name) once

theorem lookup_eq_none_of_count (none : (members.map Prod.fst).count name = 0) :
    members.lookup name = .none := by
  rw [List.lookup_eq_none_iff]
  intro m mem
  have out : name ∉ members.map Prod.fst := List.count_eq_zero.mp none
  have other : name ≠ m.1 := fun same => out (same ▸ List.mem_map_of_mem mem)
  exact bne_iff_ne.mpr other

theorem Retold.found (retold : Retold alike members core) (once : Once members name) :
    Found (alike name) (members.lookup name) (core.lookup name) := by
  induction retold with
  | nil => exact .missing
  | @kept other t u members core same _ ih =>
      rw [List.lookup_cons, List.lookup_cons]
      by_cases here : name = other
      · subst here
        rw [beq_self_eq_true]
        exact .there same
      · rw [beq_eq_false_iff_ne.mpr here]
        rw [Once, List.map_cons, List.count_cons_of_ne (Ne.symm here)] at once
        exact ih once
  | @leftOut other members core later ih =>
      rw [List.lookup_cons]
      by_cases here : name = other
      · subst here
        -- No second member has the name, so what is left out is missing in the rest too.
        rw [Once, List.map_cons, List.count_cons_self] at once
        have fewer := later.sublist.count_le name
        have none : (core.map Prod.fst).count name = 0 := by omega
        rw [beq_self_eq_true, lookup_eq_none_of_count none]
        exact .leftOut
      · rw [beq_eq_false_iff_ne.mpr here]
        rw [Once, List.map_cons, List.count_cons_of_ne (Ne.symm here)] at once
        exact ih once

/-- Members under other names, and the order, make no difference to a name that stands once. -/
theorem lookup_of_added (order : all.Perm (core ++ added)) (other : ∀ m ∈ added, m.1 ≠ name)
    (once : Once core name) : Once all name ∧ all.lookup name = core.lookup name := by
  have outside : (added.map Prod.fst).count name = 0 := by
    rw [List.count_eq_zero, List.mem_map]
    rintro ⟨m, mem, same⟩
    exact other m mem same
  have onceAll : Once all name := by
    rw [Once, (order.map Prod.fst).count_eq, List.map_append, List.count_append, outside]
    exact once
  refine ⟨onceAll, Option.ext fun t => ?_⟩
  have members : (name, t) ∈ all ↔ (name, t) ∈ core := by
    rw [order.mem_iff, List.mem_append]
    exact or_iff_left fun mem => other _ mem rfl
  exact (lookup_eq_some_iff_mem onceAll).trans
    (members.trans (lookup_eq_some_iff_mem once).symm)

/-- Fields out of a record that says what other members say. -/
structure Shows (names : List String) (alike : String → Tree → Tree → Prop)
    (members : List (String × Tree)) (f : Fields) : Prop where
  byName : f.positional = false
  found : ∀ name ∈ names, Found (alike name) (members.lookup name) (f.present.lookup name)

theorem record_injective : Function.Injective Tree.record := by
  intro members others same
  exact List.map_injective_iff.mpr (fun m n same => by simpa [Prod.ext_iff] using same)
    (Tree.object.inj same)

theorem Restates.refl (self : ∀ name t, alike name t t) :
    Restates names alike (.record members) (.record members) :=
  .record (.refl self) (List.forall_mem_nil _) (by rw [List.append_nil])

/-- The fields of a record are found in every record that says the same. -/
theorem Restates.fields (restates : Restates names alike (.record members) t) (level : Nat)
    (order : (members.map Prod.fst).Sublist names) (distinct : names.Nodup) :
    ∃ f, fields names (level + 1) t = some f ∧ f.level = level ∧ Shows names alike members f := by
  -- A record is an object with tagged names: `cases` needs it as a variable.
  generalize whole : Tree.record members = s at restates
  cases restates with
  | @record others core added all retold unknown perm =>
      obtain rfl := record_injective whole
      have once (name : String) : Once members name :=
        List.nodup_iff_count_le_one.mp (distinct.sublist order) name
      have same (name : String) (known : name ∈ names) :=
        lookup_of_added perm (fun m mem here => unknown m mem (here ▸ known))
          (retold.once (once name))
      refine ⟨_, fields_record fun name known => (same name known).1, rfl, rfl, ?_⟩
      intro name known
      rw [lookup_filter known, (same name known).2]
      exact retold.found (once name)

namespace Shows

variable {α : Type} {read : Reading α} {image : α → Tree} {value : α} {default : α}
variable (shows : Shows names alike members f) (known : name ∈ names)
include shows known

/-- What is not `null` is there. -/
theorem present (written : members.lookup name = some t) (filled : t ≠ .null) :
    ∃ u, f.present.lookup name = some u ∧ alike name t u := by
  have found := shows.found name known
  rw [written] at found
  generalize f.present.lookup name = there at found ⊢
  cases found with
  | there same => exact ⟨_, rfl, same⟩
  | leftOut => exact absurd rfl filled

theorem required (written : members.lookup name = some t) (filled : t ≠ .null)
    (reads : ∀ u, alike name t u → read f.level u = some value) :
    f.required name read = some value := by
  obtain ⟨u, there, same⟩ := shows.present known written filled
  rw [Fields.required, there]
  exact reads u same

theorem required_fixed (fixes : Fixes alike name) (written : members.lookup name = some t)
    (filled : t ≠ .null) (back : read f.level t = some value) :
    f.required name read = some value := by
  refine shows.required known written filled fun u same => ?_
  rw [fixes t u same]
  exact back

theorem withDefault (written : members.lookup name = some t) (filled : t ≠ .null)
    (reads : ∀ u, alike name t u → read f.level u = some value) :
    f.withDefault name read default = some value := by
  obtain ⟨u, there, same⟩ := shows.present known written filled
  rw [Fields.withDefault, there]
  exact reads u same

theorem default_of_missing (unwritten : members.lookup name = none) :
    f.withDefault name read default = some default := by
  have found := shows.found name known
  rw [unwritten] at found
  generalize there : f.present.lookup name = other at found
  cases found
  rw [Fields.withDefault, there]

section Nullable

variable {value : Option α} (fixes : Fixes alike name)
  (written : members.lookup name = some (.ofOption image value))
  (reads : ∀ a, image a ≠ .null ∧ read f.level (image a) = some a)
include fixes written reads

/-- A value that may be `null` is there, or it is `null` and has been left out. -/
theorem nullable :
    f.present.lookup name = none ∧ value = none ∨
      ∃ u, f.present.lookup name = some u ∧ Reading.nullable read f.level u = some value := by
  cases value with
  | none =>
      have found := shows.found name known
      rw [written] at found
      generalize f.present.lookup name = there at found ⊢
      cases found with
      | there same =>
          obtain rfl := fixes _ _ same
          exact .inr ⟨.null, rfl, rfl⟩
      | leftOut => exact .inl ⟨rfl, rfl⟩
  | some a =>
      obtain ⟨filled, back⟩ := reads a
      obtain ⟨u, there, same⟩ := shows.present known written filled
      obtain rfl := fixes _ _ same
      refine .inr ⟨_, there, ?_⟩
      unfold Reading.nullable
      split
      case h_1 null => exact absurd null filled
      case h_2 => rw [Tree.ofOption, back, Option.map_some]

theorem optional : f.optional name read = some value := by
  unfold Fields.optional
  rcases shows.nullable known fixes written reads with ⟨out, rfl⟩ | ⟨u, there, back⟩
  · simp [out, shows.byName]
  · simp only [there]
    exact back

theorem nullableOrNone : f.withDefault name (Reading.nullable read) none = some value := by
  unfold Fields.withDefault
  rcases shows.nullable known fixes written reads with ⟨out, rfl⟩ | ⟨u, there, back⟩
  · rw [out]
  · rw [there]
    exact back

end Nullable

end Shows

/-! ## Reading back -/

/-- How the values of a type are written, and how they are read from every tree that says the
    same. -/
structure Recovers {α : Type} (write : α → Tree) (read : Reading α) (alike : Tree → Tree → Prop) :
    Prop where
  proper : ∀ a, (write a).Proper
  self : ∀ a, alike (write a) (write a)
  reads : ∀ a t, alike (write a) t → read maxDepth t = some a

/-- A value is read back from its text, and from every text of a tree that says the same. -/
def Faithful {α : Type} (write : α → Tree) (read : Reading α) (alike : Tree → Tree → Prop) : Prop :=
  ∀ a, read.parse? (write a).text = some a ∧
    ∀ t text, alike (write a) t → Denotes text.toList t → read.parse? text = some a

theorem Recovers.faithful {α : Type} {write : α → Tree} {read : Reading α}
    {alike : Tree → Tree → Prop} (recovers : Recovers write read alike) :
    Faithful write read alike := by
  have back (a : α) (t : Tree) (text : String) (same : alike (write a) t)
      (denotes : Denotes text.toList t) : read.parse? text = some a := by
    rw [Reading.parse?, parse?_iff_denotes.mpr denotes]
    exact recovers.reads a t same
  exact fun a => ⟨back a _ _ (recovers.self a) (recovers.proper a).denotes, back a⟩

end NoteAssistant.Json
