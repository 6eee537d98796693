import Mathlib.Data.List.Basic
import NoteAssistant.Config.Validation

/-! # What validation accepts

The rules for drivers and for usage entries as conditions on the configuration, apart from
the problems that tell of their violation.
-/

namespace NoteAssistant.Config

/-- A driver without any problem of its own. -/
structure Usable (d : DriverConfig) : Prop where
  named : trimmed d.name ≠ ""
  reachable : isHttp (trimmed d.endpoint) = true
  patient : d.timeoutSecs ≠ 0
  able : d.capabilities ≠ []

/-- The first driver that a usage entry can mean is able to do the job. -/
structure Served (drivers : List DriverConfig) (u : String × String) : Prop where
  known : u.1 ∈ UsageKey.all
  able : ∃ d, namedDriver? drivers u.2 = some d ∧ Capability.ofUsageKey u.1 ∈ d.capabilities

theorem report_eq_nil {condition : Bool} {p : Problem} :
    report condition p = [] ↔ condition = false := by
  cases condition <;> simp [report]

theorem driverProblems_eq_nil {seen : List String} {index : Nat} {d : DriverConfig} :
    driverProblems seen index d = [] ↔ Usable d ∧ nameKey d.name ∉ seen := by
  unfold driverProblems
  by_cases unnamed : trimmed d.name = ""
  · constructor
    · intro none
      simp [unnamed] at none
    · rintro ⟨usable, _⟩
      exact absurd unnamed usable.named
  · simp only [unnamed, if_false, List.append_eq_nil_iff, report_eq_nil]
    constructor
    · rintro ⟨⟨⟨fresh, reachable⟩, patient⟩, able⟩
      refine ⟨⟨unnamed, ?_, ?_, ?_⟩, ?_⟩
      · simpa using reachable
      · simpa using patient
      · simpa using able
      · simpa [nameKey] using fresh
    · rintro ⟨⟨_, reachable, patient, able⟩, fresh⟩
      refine ⟨⟨⟨?_, ?_⟩, ?_⟩, ?_⟩
      · simpa [nameKey] using fresh
      · simpa using reachable
      · simpa using patient
      · simpa using able

/-- The names of accepted drivers differ in more than case and the blanks around them. -/
theorem driverListProblems_eq_nil {seen : List String} {index : Nat} {ds : List DriverConfig} :
    driverListProblems seen index ds = [] ↔
      (∀ d ∈ ds, Usable d) ∧ (ds.map (nameKey ·.name)).Nodup
        ∧ ∀ d ∈ ds, nameKey d.name ∉ seen := by
  induction ds generalizing seen index with
  | nil => simp [driverListProblems]
  | cons d rest ih =>
      simp only [driverListProblems, List.append_eq_nil_iff, driverProblems_eq_nil, ih,
        List.forall_mem_cons, List.map_cons, List.nodup_cons]
      constructor
      · rintro ⟨⟨usable, fresh⟩, others, distinct, unseen⟩
        rw [if_neg usable.named] at unseen
        refine ⟨⟨usable, others⟩, ⟨?_, distinct⟩, fresh, ?_⟩
        · intro again
          obtain ⟨e, mem, same⟩ := List.mem_map.mp again
          exact unseen e mem (List.mem_cons.mpr (.inl same))
        · intro e mem old
          exact unseen e mem (List.mem_cons_of_mem _ old)
      · rintro ⟨⟨usable, others⟩, ⟨first, distinct⟩, fresh, unseen⟩
        rw [if_neg usable.named]
        refine ⟨⟨usable, fresh⟩, others, distinct, ?_⟩
        intro e mem old
        rcases List.mem_cons.mp old with same | old
        · exact first (List.mem_map.mpr ⟨e, mem, same⟩)
        · exact unseen e mem old

theorem usageProblems_eq_nil {drivers : List DriverConfig} {u : String × String} :
    usageProblems drivers u.1 u.2 = [] ↔ Served drivers u := by
  unfold usageProblems
  by_cases known : u.1 ∈ UsageKey.all
  · cases found : namedDriver? drivers u.2 with
    | none =>
        constructor
        · intro none
          simp [known] at none
        · rintro ⟨_, d, there, _⟩
          simp [found] at there
    | some d =>
        simp only [List.contains_iff_mem.mpr known, Bool.not_true, Bool.false_eq_true, if_false,
          report_eq_nil, Bool.not_eq_false', List.contains_iff_mem]
        constructor
        · intro able
          exact ⟨known, d, found, able⟩
        · rintro ⟨_, e, there, able⟩
          cases found.symm.trans there
          exact able
  · constructor
    · intro none
      simp [known] at none
    · intro served
      exact absurd served.known known

theorem mem_sortedUsage {usage : List (String × String)} {u : String × String} :
    u ∈ sortedUsage usage ↔ u ∈ usage := List.mem_mergeSort

/-- Entries in order already stay as they are. -/
theorem sortedUsage_of_pairwise {usage : List (String × String)}
    (sorted : usage.Pairwise fun a b => decide (a.1 ≤ b.1) = true) : sortedUsage usage = usage :=
  List.mergeSort_of_pairwise sorted

/-- An accepted configuration follows the rules for drivers and usage entries. -/
theorem drivers_of_isValid {c : Config} (valid : c.isValid = true) :
    (∀ d ∈ c.drivers, Usable d) ∧ (c.drivers.map (nameKey ·.name)).Nodup
      ∧ ∀ u ∈ c.usage, Served c.drivers u := by
  have none : c.problems = [] := List.isEmpty_iff.mp valid
  simp only [problems, List.append_eq_nil_iff, List.flatMap_eq_nil_iff] at none
  obtain ⟨⟨⟨⟨⟨_, drivers⟩, usage⟩, _⟩, _⟩, _⟩ := none
  obtain ⟨usable, distinct, _⟩ := driverListProblems_eq_nil.mp drivers
  refine ⟨usable, distinct, ?_⟩
  intro u mem
  exact usageProblems_eq_nil.mp (usage u (mem_sortedUsage.mpr mem))

/-- The history window of an accepted configuration has room for the minimum of messages. -/
theorem window_of_isValid {c : Config} (valid : c.isValid = true) :
    c.rag.enhanceMinHistory ≤ c.rag.historyWindow := by
  have none : c.problems = [] := List.isEmpty_iff.mp valid
  simp only [problems, ragProblems, List.append_eq_nil_iff, report_eq_nil] at none
  obtain ⟨⟨⟨_, ⟨⟨⟨_, window⟩, _⟩, _⟩, _⟩, _⟩, _⟩ := none
  simpa using window

end NoteAssistant.Config
