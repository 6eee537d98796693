import NoteAssistant.Command.Program
import NoteAssistant.Proofs.Config.Acceptance
import NoteAssistant.Proofs.Routing.Building

/-! # Accepted configurations and their routers

Validation and the router read names in two ways: validation leaves out the blanks around the
name of a driver, and the registry keeps them. A router for an accepted configuration honours
its usage entries if and only if no driver that they name has such blanks.
-/

namespace NoteAssistant

open Wire (Service)

def DriverConfig.profile (d : DriverConfig) : DriverProfile := ⟨d.name, d.lang, d.capabilities⟩

theorem DriverConfig.supports_entry (d : DriverConfig) (place : Nat) (c : Capability) :
    (d.profile.entry place).supports c = true ↔ c ∈ d.capabilities := by
  have enhances : Capability.enhance ∈ d.capabilities ↔ Capability.chat ∈ d.capabilities := by
    simp [DriverConfig.capabilities]
  cases c with
  | enhance =>
      rw [enhances]
      exact List.contains_iff_mem
  | chat | embedding | rerank | vision | reader => exact List.contains_iff_mem

namespace Command

variable {c : Config} {lookup : String → Option String} {u : List (String × String)} {r : Router}

/-- The key of every driver, if it has one, can be sent in a header. -/
def Sendable (c : Config) (lookup : String → Option String) : Prop :=
  ∀ d ∈ c.drivers, ((Service.keyOf d lookup).all fun k => k.toList.all Service.isHeaderChar) = true

/-- The configured driver that a usage entry names serves its key. -/
def Honours (c : Config) (r : Router) (u : String × String) : Prop :=
  ∃ (place : Nat) (d : DriverConfig), c.drivers[place]? = some d ∧ nameKey d.name = nameKey u.2 ∧
    r.entryFor u.1 = .ok (d.profile.entry place)

theorem mapM_ofConfig {ds : List DriverConfig}
    (sendable : ∀ d ∈ ds,
      ((Service.keyOf d lookup).all fun k => k.toList.all Service.isHeaderChar) = true) :
    (ds.mapM fun d => Service.ofConfig d lookup) =
      .ok (ds.map fun d => ⟨d, Service.baseOf d.endpoint, Service.keyOf d lookup⟩) := by
  induction ds with
  | nil => rfl
  | cons d rest ih =>
      obtain ⟨first, others⟩ := List.forall_mem_cons.mp sendable
      rw [List.mapM_cons, ih others, Service.ofConfig, if_pos first]
      rfl

theorem router_eq (sendable : Sendable c lookup) :
    router c lookup =
      Router.build (c.drivers.map (·.profile)) c.usage (.ofConfig c.site.title c.overrides)
        c.site.defaultLang := by
  rw [router, mapM_ofConfig sendable]
  change Router.build ((c.drivers.map _).map _) _ _ _ = _
  rw [List.map_map]
  rfl

/-! ## The drivers -/

theorem mem_registered_profiles {ds : List DriverConfig} {e : DriverEntry} :
    e ∈ Registry.registered (ds.map (·.profile)) ↔
      ∃ (place : Nat) (d : DriverConfig), ds[place]? = some d ∧ d.profile.entry place = e := by
  rw [Registry.mem_registered]
  constructor
  · rintro ⟨place, p, there, rfl⟩
    rw [List.getElem?_map, Option.map_eq_some_iff] at there
    obtain ⟨d, there, rfl⟩ := there
    exact ⟨place, d, there, rfl⟩
  · rintro ⟨place, d, there, rfl⟩
    refine ⟨place, d.profile, ?_, rfl⟩
    rw [List.getElem?_map, there]
    rfl

theorem exists_registered {ds : List DriverConfig} {P : DriverEntry → Prop} :
    (∃ e ∈ Registry.registered (ds.map (·.profile)), P e) ↔
      ∃ (place : Nat) (d : DriverConfig), ds[place]? = some d ∧ P (d.profile.entry place) := by
  constructor
  · rintro ⟨e, mem, holds⟩
    obtain ⟨place, d, there, rfl⟩ := mem_registered_profiles.mp mem
    exact ⟨place, d, there, holds⟩
  · rintro ⟨place, d, there, holds⟩
    exact ⟨_, mem_registered_profiles.mpr ⟨place, d, there, rfl⟩, holds⟩

theorem exists_supports {ds : List DriverConfig} {capability : Capability} :
    (∃ e ∈ Registry.registered (ds.map (·.profile)), e.supports capability = true) ↔
      ∃ d ∈ ds, capability ∈ d.capabilities := by
  rw [exists_registered]
  constructor
  · rintro ⟨place, d, there, able⟩
    exact ⟨d, List.mem_of_getElem? there, (d.supports_entry place capability).mp able⟩
  · rintro ⟨d, mem, able⟩
    obtain ⟨place, there⟩ := List.mem_iff_getElem?.mp mem
    exact ⟨place, d, there, (d.supports_entry place capability).mpr able⟩

theorem names_registered (ds : List DriverConfig) :
    (Registry.registered (ds.map (·.profile))).map (·.name) = ds.map fun d => lowered d.name := by
  rw [Registry.registered, Registry.names_entriesFrom, List.map_map]
  rfl

theorem nodup_registered {ds : List DriverConfig} (distinct : (ds.map (nameKey ·.name)).Nodup) :
    ((Registry.registered (ds.map (·.profile))).map (·.name)).Nodup := by
  rw [names_registered]
  apply List.Nodup.of_map nameKey
  rw [List.map_map]
  simpa [Function.comp_def] using distinct

theorem named_registered {ds : List DriverConfig} (usable : ∀ d ∈ ds, Config.Usable d) :
    ∀ e ∈ Registry.registered (ds.map (·.profile)), e.name ≠ "" := by
  intro e mem unnamed
  obtain ⟨place, d, there, rfl⟩ := mem_registered_profiles.mp mem
  apply (usable d (List.mem_of_getElem? there)).named
  have empty : nameKey (lowered d.name) = nameKey "" := congrArg nameKey unnamed
  rw [nameKey_lowered] at empty
  have none : (nameKey d.name).toList = [] := by
    rw [empty]
    decide
  have none : Text.trim d.name.toList = [] := by
    simpa [nameKey, lowered, trimmed, Text.lowerAscii] using none
  rw [trimmed, none]

/-! ## The usage entries -/

theorem nameKey_of_known {key : String} (known : key ∈ UsageKey.all) : nameKey key = key := by
  have each : ∀ k ∈ UsageKey.all, nameKey k = k := by decide +kernel
  exact each key known

/-- Known keys that differ are bound once each. -/
theorem lastUsage?_of_mem (keys : (u.map (·.1)).Nodup) (known : ∀ v ∈ u, v.1 ∈ UsageKey.all)
    {v : String × String} (mem : v ∈ u) : Router.lastUsage? u v.1 = some v := by
  cases last : Router.lastUsage? u v.1 with
  | none =>
      rw [Router.lastUsage?, List.getLast?_eq_none_iff] at last
      have found : v ∈ u.filter fun w => nameKey w.1 = nameKey v.1 :=
        List.mem_filter.mpr ⟨mem, by simp⟩
      rw [last] at found
      cases found
  | some w =>
      obtain ⟨there, same⟩ := List.mem_filter.mp (List.mem_of_getLast? last)
      have same : nameKey w.1 = nameKey v.1 := by simpa using same
      rw [nameKey_of_known (known w there), nameKey_of_known (known v mem)] at same
      rw [List.inj_on_of_nodup_map keys there mem same]

/-- A usage entry of an accepted configuration is served if and only if the driver that it
    names has no blanks around its own name. -/
theorem served_iff_trimmed {ds : List DriverConfig}
    (distinct : (ds.map (nameKey ·.name)).Nodup) {v : String × String}
    (served : Config.Served ds v) :
    (∃ e ∈ Registry.registered (ds.map (·.profile)),
        e.name = nameKey v.2 ∧ e.supports (.ofUsageKey v.1) = true) ↔
      ∀ d ∈ ds, nameKey d.name = nameKey v.2 → trimmed d.name = d.name := by
  rw [exists_registered]
  constructor
  · rintro ⟨place, d, there, name, _⟩ d' mem same
    have name : lowered d.name = nameKey v.2 := name
    have key : nameKey d.name = nameKey v.2 := by
      rw [← nameKey_lowered, name, nameKey_nameKey]
    obtain rfl : d = d' :=
      List.inj_on_of_nodup_map distinct (List.mem_of_getElem? there) mem (key.trans same.symm)
    exact (lowered_eq_nameKey_iff d.name).mp (name.trans key.symm)
  · intro clean
    obtain ⟨d, found, able⟩ := served.able
    have mem := List.mem_of_find?_eq_some found
    have key : nameKey d.name = nameKey v.2 := by simpa using List.find?_some found
    obtain ⟨place, there⟩ := List.mem_iff_getElem?.mp mem
    refine ⟨place, d, there, ?_, (d.supports_entry place _).mpr able⟩
    exact ((lowered_eq_nameKey_iff d.name).mpr (clean d mem key)).trans key

theorem honours_of_routes (routes : r.Routes (Registry.registered (c.drivers.map (·.profile))) u)
    {v : String × String} (last : Router.lastUsage? u v.1 = some v) : Honours c r v := by
  obtain ⟨e, mem, name, served⟩ := routes.bound v.1 v last
  obtain ⟨place, d, there, rfl⟩ := mem_registered_profiles.mp mem
  refine ⟨place, d, there, ?_, served⟩
  have name : lowered d.name = nameKey v.2 := name
  rw [← nameKey_lowered, name, nameKey_nameKey]

/-- The router of an accepted configuration with drivers that chat and embed, whose usage table
    is gone through in any order, can be built and honours every entry, if and only if no driver
    that an entry names has blanks around its name. -/
theorem router_honours_iff (c : Config) (lookup : String → Option String)
    (u : List (String × String)) (valid : c.isValid = true) (order : u.Perm c.usage)
    (keys : (c.usage.map (·.1)).Nodup) (chats : ∃ d ∈ c.drivers, d.chatModel.isSome = true)
    (embeds : ∃ d ∈ c.drivers, d.embeddingModel.isSome = true) (sendable : Sendable c lookup) :
    (∃ r, router { c with usage := u } lookup = .ok r ∧ ∀ v ∈ c.usage, Honours c r v) ↔
      ∀ v ∈ c.usage, ∀ d ∈ c.drivers, nameKey d.name = nameKey v.2 → trimmed d.name = d.name := by
  obtain ⟨usable, distinct, served⟩ := Config.drivers_of_isValid valid
  rw [router_eq (c := { c with usage := u }) sendable]
  constructor
  · rintro ⟨r, built, _⟩ v mem
    obtain ⟨buildable, _⟩ := Router.build_eq_ok.mp built
    exact (served_iff_trimmed distinct (served v mem)).mp
      (buildable.served v (order.mem_iff.mpr mem))
  · intro clean
    have buildable : Router.Buildable (Registry.registered (c.drivers.map (·.profile))) u := by
      constructor
      case named => exact named_registered usable
      case distinct => exact nodup_registered distinct
      case served =>
        intro v mem
        have mem := order.mem_iff.mp mem
        exact (served_iff_trimmed distinct (served v mem)).mpr (clean v mem)
      case chats =>
        obtain ⟨d, mem, chats⟩ := chats
        exact exists_supports.mpr ⟨d, mem, by simp [DriverConfig.capabilities, chats]⟩
      case embeds =>
        obtain ⟨d, mem, embeds⟩ := embeds
        exact exists_supports.mpr ⟨d, mem, by simp [DriverConfig.capabilities, embeds]⟩
    refine ⟨_, Router.build_eq_ok.mpr ⟨buildable, rfl⟩, ?_⟩
    intro v mem
    have keys : (u.map (·.1)).Nodup := (order.map (·.1)).nodup_iff.mpr keys
    have known : ∀ v ∈ u, v.1 ∈ UsageKey.all :=
      fun v mem => (served v (order.mem_iff.mp mem)).known
    have last := lastUsage?_of_mem keys known (order.mem_iff.mpr mem)
    exact honours_of_routes (Router.routing_routes _ _ buildable) last

/-- Two drivers that are named in another spelling, in the other order; a third one has blanks
    around its name, and no entry names it. -/
theorem router_honours_iff_spelled :
    let c : Config := {
      drivers := [
        { name := "Local", endpoint := "http://a", chatModel := some "m",
          embeddingModel := some "e" },
        { name := " spare ", endpoint := "http://b", chatModel := some "m" },
        { name := "Ranker", endpoint := "http://c", rerankModel := some "r" }]
      usage := [("query", " LOCAL"), ("rerank", "ranker ")] }
    let u := [("rerank", "ranker "), ("query", " LOCAL")]
    c.isValid = true ∧ u.Perm c.usage ∧ (c.usage.map (·.1)).Nodup
      ∧ (∃ d ∈ c.drivers, d.chatModel.isSome = true)
      ∧ (∃ d ∈ c.drivers, d.embeddingModel.isSome = true) ∧ Sendable c (fun _ => none)
      ∧ ∃ r, router { c with usage := u } (fun _ => none) = .ok r
        ∧ ∀ v ∈ c.usage, Honours c r v := by
  intro c u
  have valid : c.isValid = true := by
    rw [Config.isValid, Config.problems, Config.sortedUsage_of_pairwise (by decide)]
    decide +kernel
  have order : u.Perm c.usage := List.Perm.swap _ _ _
  have keys : (c.usage.map (·.1)).Nodup := by decide
  have chats : ∃ d ∈ c.drivers, d.chatModel.isSome = true := by decide
  have embeds : ∃ d ∈ c.drivers, d.embeddingModel.isSome = true := by decide
  have sendable : Sendable c (fun _ => none) := by
    unfold Sendable
    decide +kernel
  have clean : ∀ v ∈ c.usage, ∀ d ∈ c.drivers,
      nameKey d.name = nameKey v.2 → trimmed d.name = d.name := by decide +kernel
  exact ⟨valid, order, keys, chats, embeds, sendable,
    (router_honours_iff c _ u valid order keys chats embeds sendable).mpr clean⟩

/-- A name with a blank in front is accepted, and no usage entry finds it. -/
theorem router_misses_padded :
    let c : Config := {
      drivers := [
        { name := " main", endpoint := "http://a", chatModel := some "m",
          embeddingModel := some "e" }]
      usage := [("query", "main")] }
    c.isValid = true ∧ (∃ d ∈ c.drivers, d.chatModel.isSome = true)
      ∧ (∃ d ∈ c.drivers, d.embeddingModel.isSome = true) ∧ Sendable c (fun _ => none)
      ∧ router c (fun _ => none) = .error (.driverNotFound "main") := by
  intro c
  have valid : c.isValid = true := by
    rw [Config.isValid, Config.problems, Config.sortedUsage_of_pairwise (by decide)]
    decide +kernel
  have sendable : Sendable c (fun _ => none) := by
    unfold Sendable
    decide +kernel
  exact ⟨valid, by decide, by decide, sendable, by decide +kernel⟩

end Command

end NoteAssistant
