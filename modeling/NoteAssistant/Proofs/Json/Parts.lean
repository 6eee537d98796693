import Mathlib.Data.String.Basic
import NoteAssistant.Json.Value

/-! # The parts of a value

A value is made of parts at any depth. In every object that is a part of a value that has been
read the members stand in the order of their names, and no name stands twice
(`Value.ordered_of_parse?`).
-/

namespace NoteAssistant.Json.Value

/-- A value is a part of itself, and the parts of its items and members are its parts. -/
inductive Part : Value → Value → Prop where
  | self (v : Value) : Part v v
  | item {items : List Value} {v part : Value} (mem : v ∈ items) (inner : Part v part) :
      Part (.array items) part
  | member {members : List (String × Value)} {name : String} {v part : Value}
      (mem : (name, v) ∈ members) (inner : Part v part) : Part (.object members) part

theorem part_array_iff {items : List Value} {members : List (String × Value)} :
    Part (.array items) (.object members) ↔ ∃ v ∈ items, Part v (.object members) := by
  constructor
  · intro part
    cases part with
    | item mem inner => exact ⟨_, mem, inner⟩
  · rintro ⟨v, mem, inner⟩
    exact .item mem inner

theorem part_object_iff {outer members : List (String × Value)} :
    Part (.object outer) (.object members) ↔
      outer = members ∨ ∃ m ∈ outer, Part m.2 (.object members) := by
  constructor
  · intro part
    cases part with
    | self => exact .inl rfl
    | member mem inner => exact .inr ⟨_, mem, inner⟩
  · rintro (rfl | ⟨m, mem, inner⟩)
    · exact .self _
    · exact .member mem inner

/-- Induction over a value and the parts of its arrays and objects. -/
@[elab_as_elim]
theorem nested {motive : Value → Prop} (null : motive .null) (bool : ∀ b, motive (.bool b))
    (number : ∀ n, motive (.number n)) (string : ∀ s, motive (.string s))
    (array : ∀ items, (∀ v ∈ items, motive v) → motive (.array items))
    (object : ∀ members, (∀ m ∈ members, motive m.2) → motive (.object members)) (v : Value) :
    motive v := by
  match v with
  | .null => exact null
  | .bool b => exact bool b
  | .number n => exact number n
  | .string s => exact string s
  | .array items =>
      exact array items fun v mem => nested null bool number string array object v
  | .object members =>
      exact object members fun m mem => nested null bool number string array object m.2
termination_by sizeOf v
decreasing_by
  · have inside := List.sizeOf_lt_of_mem mem
    rw [Value.array.sizeOf_spec]
    omega
  · have inside := List.sizeOf_lt_of_mem mem
    have second : sizeOf m.2 < sizeOf m := by
      cases m
      simp only [Prod.mk.sizeOf_spec]
      omega
    rw [Value.object.sizeOf_spec]
    omega

/-- Members by ascending names. -/
def Ascending (members : List (String × Value)) : Prop := members.Pairwise fun a b => a.1 < b.1

/-- The members of every object in a value ascend. -/
def Ordered (v : Value) : Prop := ∀ members, Part v (.object members) → Ascending members

section Order

variable {members : List (String × Value)} {items : List Value} {name : String} {v : Value}

theorem Ordered.scalar (noArray : ∀ items, v ≠ .array items)
    (noObject : ∀ members, v ≠ .object members) : v.Ordered := by
  intro members part
  cases part with
  | self => exact absurd rfl (noObject _)
  | item => exact absurd rfl (noArray _)
  | member => exact absurd rfl (noObject _)

theorem Ordered.array (each : ∀ v ∈ items, v.Ordered) : (array items).Ordered := by
  intro members part
  cases part with
  | item mem inner => exact each _ mem members inner

theorem Ordered.object (ascending : Ascending members) (each : ∀ m ∈ members, m.2.Ordered) :
    (object members).Ordered := by
  intro inside part
  cases part with
  | self => exact ascending
  | member mem inner => exact each _ mem inside inner

theorem Ordered.item (ordered : (Value.array items).Ordered) (mem : v ∈ items) : v.Ordered :=
  fun members part => ordered members (.item mem part)

theorem Ordered.member (ordered : (Value.object members).Ordered) (mem : (name, v) ∈ members) :
    v.Ordered :=
  fun inside part => ordered inside (.member mem part)

/-- No name stands twice, so that a name finds the one member it names. -/
theorem Ascending.lookup_eq_some_iff (ascending : Ascending members) :
    members.lookup name = some v ↔ (name, v) ∈ members := by
  induction members with
  | nil => simp
  | cons first rest ih =>
      obtain ⟨least, tail⟩ := List.pairwise_cons.mp ascending
      obtain ⟨other, w⟩ := first
      rw [List.lookup_cons, List.mem_cons, Prod.mk.injEq]
      by_cases same : name = other
      · have once : (name, v) ∉ rest := fun mem => (least _ mem).ne same.symm
        simp [same ▸ once, same, eq_comm]
      · rw [beq_eq_false_iff_ne.mpr same]
        simp [same, ih tail]

theorem mem_insert {m : String × Value} (mem : m ∈ insert name v members) :
    m = (name, v) ∨ m ∈ members := by
  induction members with
  | nil => exact .inl (by simpa [insert] using mem)
  | cons first rest ih =>
      unfold insert at mem
      split at mem
      case isTrue => exact List.mem_cons.mp mem
      case isFalse =>
        split at mem
        case isTrue => exact (List.mem_cons.mp mem).imp_right (List.mem_cons_of_mem _)
        case isFalse =>
          rcases List.mem_cons.mp mem with rfl | mem
          · exact .inr List.mem_cons_self
          · exact (ih mem).imp_right (List.mem_cons_of_mem _)

theorem Ascending.insert (ascending : Ascending members) : Ascending (insert name v members) := by
  induction members with
  | nil => exact List.pairwise_singleton _ _
  | cons first rest ih =>
      obtain ⟨least, tail⟩ := List.pairwise_cons.mp ascending
      unfold Value.insert
      split
      case isTrue before =>
        refine List.pairwise_cons.mpr ⟨?_, ascending⟩
        intro m mem
        rcases List.mem_cons.mp mem with rfl | mem
        · exact before
        · exact before.trans (least m mem)
      case isFalse notBefore =>
        split
        case isTrue same => exact List.pairwise_cons.mpr ⟨same ▸ least, tail⟩
        case isFalse other =>
          refine List.pairwise_cons.mpr ⟨?_, ih tail⟩
          intro m mem
          rcases mem_insert mem with rfl | mem
          · exact lt_of_le_of_ne (not_lt.mp notBefore) (Ne.symm other)
          · exact least m mem

end Order

mutual

theorem ordered_of_tree (level : Nat) (t : Tree) :
    ∀ v, ofTree? level t = some v → v.Ordered := by
  intro v read
  match level, t with
  | _, .null | _, .bool _ =>
      cases read
      exact .scalar nofun nofun
  | _, .number _ | _, .string _ =>
      obtain ⟨x, -, rfl⟩ := Option.map_eq_some_iff.mp read
      exact .scalar nofun nofun
  | 0, .array _ | 0, .object _ => cases read
  | level + 1, .array items =>
      obtain ⟨vs, itemsRead, rfl⟩ := Option.map_eq_some_iff.mp read
      exact .array (ordered_of_items level items vs itemsRead)
  | level + 1, .object members =>
      obtain ⟨ms, membersRead, rfl⟩ := Option.map_eq_some_iff.mp read
      obtain ⟨ascending, each⟩ := ordered_of_members level members ms membersRead
      exact .object ascending each

theorem ordered_of_items (level : Nat) (ts : List Tree) :
    ∀ vs, ofItems? level ts = some vs → ∀ v ∈ vs, v.Ordered := by
  intro vs read
  match ts with
  | [] =>
      cases read
      exact nofun
  | t :: ts =>
      obtain ⟨v, first, read⟩ := Option.bind_eq_some_iff.mp read
      obtain ⟨rest, later, read⟩ := Option.bind_eq_some_iff.mp read
      cases read
      exact List.forall_mem_cons.mpr ⟨ordered_of_tree level t v first,
        ordered_of_items level ts rest later⟩

theorem ordered_of_members (level : Nat) (ts : List (Option String × Tree)) :
    ∀ ms, ofMembers? level ts = some ms → Ascending ms ∧ ∀ m ∈ ms, m.2.Ordered := by
  intro ms read
  match ts with
  | [] =>
      cases read
      exact ⟨.nil, nofun⟩
  | (name, t) :: ts =>
      obtain ⟨name, rfl, read⟩ := Option.bind_eq_some_iff.mp read
      obtain ⟨v, first, read⟩ := Option.bind_eq_some_iff.mp read
      obtain ⟨rest, later, read⟩ := Option.bind_eq_some_iff.mp read
      obtain ⟨ascending, each⟩ := ordered_of_members level ts rest later
      have value := ordered_of_tree level t v first
      cases read
      split
      case isTrue => exact ⟨ascending, each⟩
      case isFalse =>
        refine ⟨ascending.insert, ?_⟩
        intro m mem
        rcases mem_insert mem with rfl | mem
        · exact value
        · exact each m mem

end

/-- A value that has been read has its members by name. -/
theorem ordered_of_parse? {text : String} {v : Value} (read : parse? text = some v) :
    v.Ordered := by
  obtain ⟨t, -, read⟩ := Option.bind_eq_some_iff.mp read
  exact ordered_of_tree _ t v read

end NoteAssistant.Json.Value
