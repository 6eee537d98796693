import Mathlib.Data.List.Nodup
import NoteAssistant.Proofs.Text.NameKey
import NoteAssistant.Routing.Registry

/-! # Registration of drivers

Registration succeeds on drivers with names that differ, and it keeps all of them in their
order. A name then stands for one driver.
-/

namespace NoteAssistant

theorem Fault.bind_eq_ok {α β : Type} {first : Except Fault α} {next : α → Except Fault β}
    {b : β} : (first >>= next) = .ok b ↔ ∃ a, first = .ok a ∧ next a = .ok b := by
  cases first with
  | error e =>
      constructor
      · intro done
        cases done
      · rintro ⟨a, done, _⟩
        cases done
  | ok a =>
      constructor
      · intro done
        exact ⟨a, rfl, done⟩
      · rintro ⟨_, answered, done⟩
        cases answered
        exact done

/-- The entry of a driver before which `place` others have been registered. -/
def DriverProfile.entry (p : DriverProfile) (place : Nat) : DriverEntry :=
  ⟨lowered p.name, p.lang, p.offered, place⟩

namespace Registry

/-- The entries of drivers before which `place` others have been registered. -/
def entriesFrom (place : Nat) (ps : List DriverProfile) : List DriverEntry :=
  (ps.zipIdx place).map fun (p, i) => p.entry i

def names (r : Registry) : List String := r.entries.map (·.name)

variable {r r' : Registry} {p : DriverProfile} {ps : List DriverProfile}

@[simp] theorem entriesFrom_cons (place : Nat) :
    entriesFrom place (p :: ps) = p.entry place :: entriesFrom (place + 1) ps := rfl

theorem names_entriesFrom (place : Nat) (ps : List DriverProfile) :
    (entriesFrom place ps).map (·.name) = ps.map fun p => lowered p.name := by
  induction ps generalizing place with
  | nil => rfl
  | cons p ps ih => exact congrArg (lowered p.name :: ·) (ih (place + 1))

theorem register_eq_ok :
    r.register p = .ok r' ↔
      lowered p.name ≠ "" ∧ lowered p.name ∉ r.names ∧
        r' = ⟨r.entries ++ [p.entry r.entries.length]⟩ := by
  have taken : r.entries.any (·.name = lowered p.name) = true ↔ lowered p.name ∈ r.names := by
    simp [names]
  unfold register
  by_cases unnamed : lowered p.name = ""
  · simp [unnamed]
  · by_cases again : lowered p.name ∈ r.names
    · simp [unnamed, taken, again]
    · simp only [unnamed, taken, again, if_false, Except.ok.injEq, ne_eq, not_false_eq_true,
        true_and]
      exact eq_comm

theorem foldlM_register (distinct : r.names.Nodup) :
    ps.foldlM register r = .ok r' ↔
      (∀ p ∈ ps, lowered p.name ≠ "") ∧ (r.names ++ ps.map fun p => lowered p.name).Nodup ∧
        r' = ⟨r.entries ++ entriesFrom r.entries.length ps⟩ := by
  induction ps generalizing r with
  | nil =>
      simp only [List.foldlM_nil, List.map_nil, List.append_nil, entriesFrom, List.zipIdx_nil]
      constructor
      · intro done
        cases done
        exact ⟨by simp, distinct, rfl⟩
      · rintro ⟨_, _, rfl⟩
        rfl
  | cons p ps ih =>
      let next : Registry := ⟨r.entries ++ [p.entry r.entries.length]⟩
      have names_next : next.names = r.names ++ [lowered p.name] := List.map_append
      have split : next.names ++ ps.map (fun p => lowered p.name) =
          r.names ++ (p :: ps).map fun p => lowered p.name := by
        rw [names_next, List.append_assoc]
        rfl
      have whole : next.entries ++ entriesFrom next.entries.length ps =
          r.entries ++ entriesFrom r.entries.length (p :: ps) := by
        simp [next]
      rw [List.foldlM_cons, Fault.bind_eq_ok, List.forall_mem_cons]
      constructor
      · rintro ⟨_, first, rest⟩
        obtain ⟨named, fresh, rfl⟩ := register_eq_ok.mp first
        have distinct' : next.names.Nodup := by
          rw [names_next]
          exact List.nodup_append_comm.mp (List.nodup_cons.mpr ⟨fresh, distinct⟩)
        obtain ⟨others, nodup, rfl⟩ := (ih distinct').mp rest
        exact ⟨⟨named, others⟩, split ▸ nodup, congrArg Registry.mk whole⟩
      · rintro ⟨⟨named, others⟩, nodup, rfl⟩
        rw [← split] at nodup
        have distinct' : next.names.Nodup := (List.nodup_append.mp nodup).1
        have fresh : lowered p.name ∉ r.names := by
          rw [names_next] at distinct'
          exact (List.nodup_cons.mp (List.nodup_append_comm.mp distinct')).1
        refine ⟨next, register_eq_ok.mpr ⟨named, fresh, rfl⟩, (ih distinct').mpr ?_⟩
        exact ⟨others, nodup, congrArg Registry.mk whole.symm⟩

/-- What is registered of a list of drivers. -/
def registered (ps : List DriverProfile) : List DriverEntry := entriesFrom 0 ps

theorem mem_registered {e : DriverEntry} :
    e ∈ registered ps ↔ ∃ i p, ps[i]? = some p ∧ DriverProfile.entry p i = e := by
  simp only [registered, entriesFrom, List.mem_map, Prod.exists, List.mk_mem_zipIdx_iff_getElem?]
  exact exists_comm

theorem ofProfiles_eq_ok :
    ofProfiles ps = .ok r ↔
      (∀ e ∈ registered ps, e.name ≠ "") ∧ ((registered ps).map (·.name)).Nodup ∧
        r = ⟨registered ps⟩ := by
  have named : (∀ e ∈ registered ps, e.name ≠ "") ↔ ∀ p ∈ ps, lowered p.name ≠ "" := by
    have each := congrArg (fun names => ∀ name ∈ names, name ≠ "") (names_entriesFrom 0 ps)
    simpa [registered] using each
  rw [ofProfiles, foldlM_register (r := empty) List.nodup_nil, named, registered,
    names_entriesFrom]
  exact Iff.rfl

theorem get?_eq_some (distinct : r.names.Nodup) {name : String} {e : DriverEntry} :
    r.get? name = some e ↔ e ∈ r.entries ∧ e.name = nameKey name := by
  constructor
  · intro found
    exact ⟨List.mem_of_find?_eq_some found, by simpa using List.find?_some found⟩
  · rintro ⟨there, here⟩
    cases found : r.get? name with
    | none => exact absurd here (by simpa using List.find?_eq_none.mp found e there)
    | some e' =>
        have same : e'.name = e.name := by
          rw [here]
          simpa using List.find?_some found
        rw [List.inj_on_of_nodup_map distinct (List.mem_of_find?_eq_some found) there same]

end Registry

end NoteAssistant
