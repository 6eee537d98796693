import NoteAssistant.Proofs.Routing.Registration
import NoteAssistant.Routing.Router

/-! # Which routers can be built, and what they route

A router is built from drivers with different names and usage entries that each name a driver
able to do the job, provided that some driver chats and some driver embeds. Every key is then
routed by its last entry, and without one to the first driver that is able to do the job.
-/

namespace NoteAssistant

@[simp] theorem Capability.ofUsageKey_nameKey (key : String) :
    Capability.ofUsageKey (nameKey key) = Capability.ofUsageKey key := by
  simp only [Capability.ofUsageKey, nameKey_nameKey]

namespace Router

open Registry (registered)

/-- The last of the usage entries for a key. -/
def lastUsage? (usage : List (String × String)) (key : String) : Option (String × String) :=
  (usage.filter fun u => nameKey u.1 = nameKey key).getLast?

/-- What drivers and usage entries have to meet. -/
structure Buildable (drivers : List DriverEntry) (usage : List (String × String)) : Prop where
  named : ∀ e ∈ drivers, e.name ≠ ""
  distinct : (drivers.map (·.name)).Nodup
  served : ∀ u ∈ usage, ∃ e ∈ drivers,
    e.name = nameKey u.2 ∧ e.supports (.ofUsageKey u.1) = true
  chats : ∃ e ∈ drivers, e.supports .chat = true
  embeds : ∃ e ∈ drivers, e.supports .embedding = true

/-- How a router for some drivers and usage entries serves every key. -/
structure Routes (r : Router) (drivers : List DriverEntry) (usage : List (String × String)) :
    Prop where
  bound : ∀ key u, lastUsage? usage key = some u →
    ∃ e ∈ drivers, e.name = nameKey u.2 ∧ r.entryFor key = .ok e
  unbound : ∀ key, lastUsage? usage key = none →
    r.entryFor key =
      match drivers.find? (·.supports (.ofUsageKey key)) with
      | some e => .ok e
      | none => .error (.unsupported (nameKey key))
  able : ∀ key e, r.entryFor key = .ok e →
    e ∈ drivers ∧ e.supports (.ofUsageKey key) = true
  reranks : (∃ e, r.reranker = .ok e) ↔ ∃ e ∈ drivers, e.supports .rerank = true
  views : (∃ e, r.viewer = .ok e) ↔ ∃ e ∈ drivers, e.supports .vision = true
  reads : (∃ e, r.reader = .ok e) ↔ ∃ e ∈ drivers, e.supports .reader = true
  enhances : (∃ e, r.enhancer = .ok e) ↔ ∃ e ∈ drivers, e.supports .enhance = true
  chats : ∀ key, Capability.ofUsageKey key ∈ [.chat, .enhance] → ∃ e, r.chat key = .ok e
  embeds : ∀ key, Capability.ofUsageKey key = .embedding → ∃ e, r.embedding key = .ok e

section Usage

variable {registry : Registry} {bound bound' usage : List (String × String)}

/-- What a usage entry binds. -/
def binding (u : String × String) : String × String := (nameKey u.1, nameKey u.2)

def Serves (registry : Registry) (u : String × String) : Prop :=
  ∃ e, registry.get? u.2 = some e ∧ e.supports (.ofUsageKey u.1) = true

theorem bindUsage_eq_ok {u : String × String} :
    bindUsage registry bound u = .ok bound' ↔
      Serves registry u ∧ bound' = binding u :: bound := by
  unfold bindUsage Serves
  dsimp only
  rw [Capability.ofUsageKey_nameKey]
  cases found : registry.get? u.2 with
  | none => simp
  | some e =>
      have name : e.name = nameKey u.2 := by simpa using List.find?_some found
      by_cases able : e.supports (.ofUsageKey u.1) = true
      · simp only [able, if_true, name, Except.ok.injEq, Option.some.injEq, exists_eq_left',
          true_and]
        exact eq_comm
      · simp [able]

theorem foldlM_bindUsage :
    usage.foldlM (bindUsage registry) bound = .ok bound' ↔
      (∀ u ∈ usage, Serves registry u) ∧ bound' = (usage.map binding).reverse ++ bound := by
  induction usage generalizing bound with
  | nil =>
      constructor
      · intro done
        cases done
        exact ⟨by simp, rfl⟩
      · rintro ⟨_, rfl⟩
        rfl
  | cons u rest ih =>
      rw [List.foldlM_cons, Fault.bind_eq_ok, List.forall_mem_cons]
      simp only [bindUsage_eq_ok, ih, List.map_cons, List.reverse_cons, List.append_assoc,
        List.singleton_append]
      constructor
      · rintro ⟨_, ⟨first, rfl⟩, others, rfl⟩
        exact ⟨⟨first, others⟩, rfl⟩
      · rintro ⟨⟨first, others⟩, rfl⟩
        exact ⟨_, ⟨first, rfl⟩, others, rfl⟩

/-- The latest binding of a key is that of its last entry. -/
theorem lookup_bindings (usage : List (String × String)) (key : String) :
    (usage.map binding).reverse.lookup (nameKey key) =
      (lastUsage? usage key).map fun u => nameKey u.2 := by
  rw [lastUsage?, List.getLast?_eq_head?_reverse, ← List.filter_reverse, List.head?_filter,
    ← List.map_reverse]
  induction usage.reverse with
  | nil => rfl
  | cons u rest ih =>
      by_cases here : nameKey u.1 = nameKey key
      · simp [binding, here]
      · have there : (nameKey key == nameKey u.1) = false := by simpa using Ne.symm here
        simpa [binding, List.lookup_cons, there, here] using ih

end Usage

section Build

variable {profiles : List DriverProfile} {usage : List (String × String)}
  {prompts : PromptAssembler} {lang : String} {r : Router}

/-- The router for some drivers and usage entries. -/
def routing (profiles : List DriverProfile) (usage : List (String × String))
    (prompts : PromptAssembler) (lang : String) : Router :=
  ⟨⟨registered profiles⟩, (usage.map binding).reverse, prompts, lang⟩

theorem mandatory_provided (drivers : List DriverEntry) :
    (mandatory.find? fun c => (Registry.first? ⟨drivers⟩ c).isNone) = none ↔
      (∃ e ∈ drivers, e.supports .chat = true) ∧ ∃ e ∈ drivers, e.supports .embedding = true := by
  simp [mandatory, Registry.first?]

theorem served_iff (distinct : ((registered profiles).map (·.name)).Nodup)
    (u : String × String) :
    Serves ⟨registered profiles⟩ u ↔ ∃ e ∈ registered profiles,
      e.name = nameKey u.2 ∧ e.supports (.ofUsageKey u.1) = true := by
  unfold Serves
  simp only [Registry.get?_eq_some (r := ⟨registered profiles⟩) distinct, and_assoc]

theorem build_eq_ok :
    build profiles usage prompts lang = .ok r ↔
      Buildable (registered profiles) usage ∧ r = routing profiles usage prompts lang := by
  unfold build
  simp only [Fault.bind_eq_ok, Registry.ofProfiles_eq_ok, foldlM_bindUsage, List.append_nil]
  constructor
  · rintro ⟨_, ⟨named, distinct, rfl⟩, _, ⟨served, rfl⟩, checked⟩
    split at checked
    case h_1 => cases checked
    case h_2 provided =>
      cases checked
      obtain ⟨chats, embeds⟩ := (mandatory_provided _).mp provided
      have served' := fun u mem => (served_iff distinct u).mp (served u mem)
      exact ⟨⟨named, distinct, served', chats, embeds⟩, rfl⟩
  · rintro ⟨⟨named, distinct, served, chats, embeds⟩, rfl⟩
    have served' := fun u mem => (served_iff distinct u).mpr (served u mem)
    refine ⟨_, ⟨named, distinct, rfl⟩, _, ⟨served', rfl⟩, ?_⟩
    rw [(mandatory_provided _).mpr ⟨chats, embeds⟩]
    rfl

end Build

section Entries

variable {profiles : List DriverProfile} {usage : List (String × String)} {key : String}
  (prompts : PromptAssembler) (lang : String)

theorem capability_of_lastUsage? {u : String × String} (h : lastUsage? usage key = some u) :
    u ∈ usage ∧ Capability.ofUsageKey u.1 = Capability.ofUsageKey key := by
  obtain ⟨mem, same⟩ := List.mem_filter.mp (List.mem_of_getLast? h)
  have same : nameKey u.1 = nameKey key := by simpa using same
  refine ⟨mem, ?_⟩
  rw [← Capability.ofUsageKey_nameKey, same, Capability.ofUsageKey_nameKey]

theorem bound?_routing :
    (routing profiles usage prompts lang).bound? key =
      (lastUsage? usage key).bind fun u => Registry.get? ⟨registered profiles⟩ u.2 := by
  simp only [bound?, routing, lookup_bindings, Option.bind_map, Function.comp_def,
    Registry.get?, nameKey_nameKey]

theorem entryFor_bound (b : Buildable (registered profiles) usage) {u : String × String}
    (last : lastUsage? usage key = some u) :
    ∃ e ∈ registered profiles, e.name = nameKey u.2 ∧
      e.supports (.ofUsageKey key) = true ∧
      (routing profiles usage prompts lang).entryFor key = .ok e := by
  obtain ⟨mem, same⟩ := capability_of_lastUsage? last
  obtain ⟨e, there, name, able⟩ := b.served u mem
  rw [same] at able
  refine ⟨e, there, name, able, ?_⟩
  have found : Registry.get? ⟨registered profiles⟩ u.2 = some e :=
    (Registry.get?_eq_some b.distinct).mpr ⟨there, name⟩
  rw [entryFor, bound?_routing, last, Option.bind_some, found, Option.some_or]

theorem entryFor_unbound (last : lastUsage? usage key = none) :
    (routing profiles usage prompts lang).entryFor key =
      match (registered profiles).find? (·.supports (.ofUsageKey key)) with
      | some e => .ok e
      | none => .error (.unsupported (nameKey key)) := by
  rw [entryFor, bound?_routing, last, Option.bind_none, Option.none_or]
  rfl

theorem able_of_entryFor (b : Buildable (registered profiles) usage) {e : DriverEntry}
    (h : (routing profiles usage prompts lang).entryFor key = .ok e) :
    e ∈ registered profiles ∧ e.supports (.ofUsageKey key) = true := by
  cases last : lastUsage? usage key with
  | some u =>
      obtain ⟨e', there, _, able, served⟩ := entryFor_bound prompts lang b last
      cases served.symm.trans h
      exact ⟨there, able⟩
  | none =>
      rw [entryFor_unbound prompts lang last] at h
      split at h
      case h_1 found =>
        cases h
        exact ⟨List.mem_of_find?_eq_some found, by simpa using List.find?_some found⟩
      case h_2 => cases h

theorem entryFor_of_able (b : Buildable (registered profiles) usage)
    (able : ∃ e ∈ registered profiles, e.supports (.ofUsageKey key) = true) :
    ∃ e, (routing profiles usage prompts lang).entryFor key = .ok e := by
  cases last : lastUsage? usage key with
  | some u =>
      obtain ⟨e, _, _, _, served⟩ := entryFor_bound prompts lang b last
      exact ⟨e, served⟩
  | none =>
      rw [entryFor_unbound prompts lang last]
      obtain ⟨e, found⟩ := Option.isSome_iff_exists.mp (List.find?_isSome.mpr able)
      rw [found]
      exact ⟨e, rfl⟩

/-- A job that needs a capability is served if and only if some driver has it. -/
theorem resolve_iff (b : Buildable (registered profiles) usage) {c : Capability}
    (needs : ∀ e : DriverEntry, e.supports (.ofUsageKey key) = e.supports c) :
    (∃ e, (routing profiles usage prompts lang).resolve c key = .ok e) ↔
      ∃ e ∈ registered profiles, e.supports c = true := by
  unfold resolve
  simp only [Fault.bind_eq_ok]
  constructor
  · rintro ⟨_, e, served, _⟩
    obtain ⟨there, able⟩ := able_of_entryFor prompts lang b served
    exact ⟨e, there, needs e ▸ able⟩
  · intro able
    simp only [← needs] at able ⊢
    obtain ⟨e, served⟩ := entryFor_of_able prompts lang b able
    exact ⟨e, e, served, if_pos (able_of_entryFor prompts lang b served).2⟩

theorem routing_routes (b : Buildable (registered profiles) usage) :
    (routing profiles usage prompts lang).Routes (registered profiles) usage := by
  constructor
  case bound =>
    intro key u last
    obtain ⟨e, there, name, _, served⟩ := entryFor_bound prompts lang b last
    exact ⟨e, there, name, served⟩
  case unbound => exact fun key => entryFor_unbound prompts lang
  case able => exact fun key e => able_of_entryFor prompts lang b
  case reranks => exact resolve_iff prompts lang b fun e => rfl
  case views => exact resolve_iff prompts lang b fun e => rfl
  case reads => exact resolve_iff prompts lang b fun e => rfl
  case enhances => exact resolve_iff prompts lang b fun e => rfl
  case chats =>
    intro key chat
    refine (resolve_iff prompts lang b fun e => ?_).mpr b.chats
    rcases List.mem_pair.mp chat with same | same
    · rw [same]
    · rw [same]
      rfl
  case embeds =>
    intro key same
    exact (resolve_iff prompts lang b fun e => by rw [same]).mpr b.embeds

end Entries

/-- A router is built if and only if the drivers and the usage entries allow it, and it then
    routes every key as they say. -/
theorem build_routes (profiles : List DriverProfile) (usage : List (String × String))
    (prompts : PromptAssembler) (lang : String) :
    ((∃ r, build profiles usage prompts lang = .ok r) ↔
        Buildable (registered profiles) usage) ∧
      ∀ r, build profiles usage prompts lang = .ok r → r.Routes (registered profiles) usage := by
  refine ⟨⟨?_, ?_⟩, ?_⟩
  · rintro ⟨r, built⟩
    exact (build_eq_ok.mp built).1
  · intro buildable
    exact ⟨_, build_eq_ok.mpr ⟨buildable, rfl⟩⟩
  · intro r built
    obtain ⟨buildable, rfl⟩ := build_eq_ok.mp built
    exact routing_routes prompts lang buildable

/-- A key that is bound twice in two spellings, and one that is not bound. -/
theorem build_routes_overridden :
    let profiles : List DriverProfile :=
      [⟨"Main", "en", [.chat, .embedding]⟩, ⟨"aux", "", [.chat, .rerank]⟩]
    let usage := [("query", "main"), (" Query", "AUX ")]
    ∃ r, build profiles usage ⟨"", []⟩ "en" = .ok r
      ∧ r.entryFor "QUERY" = .ok ⟨"aux", "", [.chat, .rerank], 1⟩
      ∧ r.entryFor "summary" = .ok ⟨"main", "en", [.chat, .embedding], 0⟩
      ∧ Buildable (registered profiles) usage
      ∧ r.Routes (registered profiles) usage := by
  intro profiles usage
  have routed : (build profiles usage ⟨"", []⟩ "en").toOption.map (fun r =>
        [r.entryFor "QUERY", r.entryFor "summary"]) =
      some [.ok ⟨"aux", "", [.chat, .rerank], 1⟩,
        .ok ⟨"main", "en", [.chat, .embedding], 0⟩] := by
    decide +kernel
  obtain ⟨built, routes⟩ := build_routes profiles usage ⟨"", []⟩ "en"
  cases done : build profiles usage ⟨"", []⟩ "en" with
  | error e => simp [done, Except.toOption] at routed
  | ok r =>
      rw [done] at routed
      obtain ⟨last, first⟩ : r.entryFor "QUERY" = .ok ⟨"aux", "", [.chat, .rerank], 1⟩ ∧
          r.entryFor "summary" = .ok ⟨"main", "en", [.chat, .embedding], 0⟩ := by
        simpa [Except.toOption] using routed
      exact ⟨r, rfl, last, first, built.mp ⟨r, done⟩, routes r done⟩

end Router

end NoteAssistant
