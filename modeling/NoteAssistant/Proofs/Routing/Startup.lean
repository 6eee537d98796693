import NoteAssistant.Proofs.Prompt.Overrides
import NoteAssistant.Proofs.Routing.Agreement

/-! # Starting up in any order

The usage entries and the prompt overrides of a configuration are gone through in no particular
order. If the configuration is accepted, the order makes no difference to the routes, and a
failure is the same but for the driver of which it says that it was not found
(`Command.startsAlike`). The prompts for a tag are the same in every order if and only if the
overrides that concern the tag are all the same; validation does not look at this.
-/

namespace NoteAssistant

open Substitution (pieces)
open Wire (Service)
open Registry (registered)

namespace Router

variable {registry : Registry} {bound u usage : List (String × String)}
  {profiles : List DriverProfile} {prompts prompts' : PromptAssembler} {lang : String}

/-- Every driver that a usage entry finds is able to do the job. -/
def Able (registry : Registry) (usage : List (String × String)) : Prop :=
  ∀ v ∈ usage, ∀ e, registry.get? v.2 = some e → e.supports (.ofUsageKey v.1) = true

/-- Binding then fails only for a driver that is not found, and says so of the first one. -/
theorem foldlM_bindUsage_of_able (able : Able registry usage) :
    usage.foldlM (bindUsage registry) bound =
      match usage.find? fun v => (registry.get? v.2).isNone with
      | some v => .error (.driverNotFound v.2)
      | none => .ok ((usage.map binding).reverse ++ bound) := by
  induction usage generalizing bound with
  | nil => rfl
  | cons v rest ih =>
      obtain ⟨first, others⟩ := List.forall_mem_cons.mp able
      rw [List.foldlM_cons]
      cases found : registry.get? v.2 with
      | none =>
          have fails : bindUsage registry bound v = .error (.driverNotFound v.2) := by
            unfold bindUsage
            dsimp only
            rw [found]
          rw [fails, List.find?_cons_of_pos (by simp [found])]
          rfl
      | some e =>
          have binds : bindUsage registry bound v = .ok (binding v :: bound) :=
            bindUsage_eq_ok.mpr ⟨⟨e, found, first e found⟩, rfl⟩
          rw [binds, List.find?_cons_of_neg (by simp [found])]
          change rest.foldlM (bindUsage registry) (binding v :: bound) = _
          rw [ih others, List.map_cons, List.reverse_cons, List.append_assoc]
          rfl

/-- The router, provided that its drivers have the mandatory capabilities. -/
def provided (r : Router) : Except Fault Router :=
  match mandatory.find? fun c => (r.registry.first? c).isNone with
  | some c => .error (.config s!"no registered driver provides {c.name}; at least one is required")
  | none => .ok r

/-- The outcome of building a router from drivers with different names. -/
theorem build_of_able (registers : Registry.ofProfiles profiles = .ok ⟨registered profiles⟩)
    (able : Able ⟨registered profiles⟩ usage) :
    build profiles usage prompts lang =
      match usage.find? fun v => (Registry.get? ⟨registered profiles⟩ v.2).isNone with
      | some v => .error (.driverNotFound v.2)
      | none => (routing profiles usage prompts lang).provided := by
  unfold build
  rw [registers]
  change (usage.foldlM (bindUsage ⟨registered profiles⟩) [] >>= _) = _
  rw [foldlM_bindUsage_of_able able]
  cases usage.find? fun v => (Registry.get? ⟨registered profiles⟩ v.2).isNone with
  | some v => rfl
  | none =>
      rw [List.append_nil]
      rfl

/-- Known keys that differ have the same last entries in every order. -/
theorem lastUsage?_perm (order : u.Perm usage) (keys : (usage.map (·.1)).Nodup)
    (known : ∀ v ∈ usage, v.1 ∈ UsageKey.all) (key : String) :
    lastUsage? u key = lastUsage? usage key := by
  cases last : lastUsage? usage key with
  | none =>
      rw [lastUsage?, List.getLast?_eq_none_iff, List.filter_eq_nil_iff] at last ⊢
      exact fun v mem => last v (order.mem_iff.mp mem)
  | some w =>
      obtain ⟨mem, same⟩ := List.mem_filter.mp (List.mem_of_getLast? last)
      have same : nameKey w.1 = nameKey key := by simpa using same
      have keys : (u.map (·.1)).Nodup := (order.map (·.1)).nodup_iff.mpr keys
      have known : ∀ v ∈ u, v.1 ∈ UsageKey.all := fun v mem => known v (order.mem_iff.mp mem)
      rw [lastUsage?, ← same]
      exact Command.lastUsage?_of_mem keys known (order.mem_iff.mpr mem)

theorem entryFor_perm (order : u.Perm usage) (keys : (usage.map (·.1)).Nodup)
    (known : ∀ v ∈ usage, v.1 ∈ UsageKey.all) (key : String) :
    (routing profiles u prompts' lang).entryFor key =
      (routing profiles usage prompts lang).entryFor key := by
  rw [entryFor, entryFor, bound?_routing, bound?_routing, lastUsage?_perm order keys known]
  rfl

end Router

namespace Command

variable {c : Config} {lookup : String → Option String} {u : List (String × String)}
  {o : List (String × PromptOverride)}

/-- No driver is registered under the name that a usage entry gives. -/
def Unfound (c : Config) (v : String × String) : Prop :=
  ∀ d ∈ c.drivers, lowered d.name ≠ nameKey v.2

instance (c : Config) : DecidablePred (Unfound c) := fun v =>
  inferInstanceAs (Decidable (∀ d ∈ c.drivers, lowered d.name ≠ nameKey v.2))

/-- Two outcomes of starting up that differ in nothing but the order of the overrides, and in which
    of the drivers that are not found a failure names. -/
inductive StartsAlike (c : Config) (o : List (String × PromptOverride)) :
    Except Fault Router → Except Fault Router → Prop where
  | built {r r' : Router} (routes : ∀ key, r'.entryFor key = r.entryFor key)
      (lang : r'.defaultLang = r.defaultLang)
      (prompts : r.prompts = .ofConfig c.site.title c.overrides)
      (prompts' : r'.prompts = .ofConfig c.site.title o) : StartsAlike c o (.ok r) (.ok r')
  | failed (fault : Fault) : StartsAlike c o (.error fault) (.error fault)
  | unfound {v w : String × String} (mem : v ∈ c.usage) (unfound : Unfound c v)
      (mem' : w ∈ c.usage) (unfound' : Unfound c w) :
      StartsAlike c o (.error (.driverNotFound v.2)) (.error (.driverNotFound w.2))

/-! ## The drivers -/

theorem sendable_of_mapM {ds : List DriverConfig} {services : List Service}
    (built : (ds.mapM fun d => Service.ofConfig d lookup) = .ok services) :
    ∀ d ∈ ds, ((Service.keyOf d lookup).all fun k => k.toList.all Service.isHeaderChar) = true := by
  induction ds generalizing services with
  | nil => simp
  | cons d rest ih =>
      rw [List.mapM_cons, Fault.bind_eq_ok] at built
      obtain ⟨s, first, built⟩ := built
      obtain ⟨others, rest, -⟩ := Fault.bind_eq_ok.mp built
      refine List.forall_mem_cons.mpr ⟨?_, ih rest⟩
      by_contra unsent
      rw [Service.ofConfig, if_neg unsent] at first
      cases first

/-- A key that cannot be sent is reported whatever else is configured. -/
theorem router_of_not_sendable (unsent : ¬ Sendable c lookup) :
    ∃ fault, ∀ u o, router { c with usage := u, overrides := o } lookup = .error fault := by
  cases built : c.drivers.mapM fun d => Service.ofConfig d lookup with
  | ok services => exact absurd (sendable_of_mapM built) unsent
  | error fault =>
      refine ⟨fault, fun u o => ?_⟩
      rw [router, built]
      rfl

theorem isNone_get? (v : String × String) :
    (Registry.get? ⟨registered (c.drivers.map (·.profile))⟩ v.2).isNone = decide (Unfound c v) := by
  have names := names_registered c.drivers
  rw [Bool.eq_iff_iff, Option.isNone_iff_eq_none, Registry.get?, List.find?_eq_none,
    decide_eq_true_iff, Unfound]
  calc (∀ e ∈ registered (c.drivers.map (·.profile)), ¬ decide (e.name = nameKey v.2) = true) ↔
        ∀ name ∈ (registered (c.drivers.map (·.profile))).map (·.name), name ≠ nameKey v.2 := by
        simp
    _ ↔ ∀ d ∈ c.drivers, lowered d.name ≠ nameKey v.2 := by rw [names, List.forall_mem_map]

theorem able_of_served (distinct : (c.drivers.map (nameKey ·.name)).Nodup)
    (served : ∀ v ∈ u, Config.Served c.drivers v) :
    Router.Able ⟨registered (c.drivers.map (·.profile))⟩ u := by
  intro v mem e found
  obtain ⟨there, name⟩ := (Registry.get?_eq_some (nodup_registered distinct)).mp found
  obtain ⟨place, d, here, rfl⟩ := mem_registered_profiles.mp there
  have name : lowered d.name = nameKey v.2 := name
  have key : nameKey d.name = nameKey v.2 := by rw [← nameKey_lowered, name, nameKey_nameKey]
  obtain ⟨d', named, able⟩ := (served v mem).able
  have key' : nameKey d'.name = nameKey v.2 := by simpa using List.find?_some named
  obtain rfl : d = d' :=
    List.inj_on_of_nodup_map distinct (List.mem_of_getElem? here)
      (List.mem_of_find?_eq_some named) (key.trans key'.symm)
  exact (d.supports_entry place _).mpr able

/-! ## The orders -/

/-- The outcome for an accepted configuration in any order. -/
theorem router_of_perm (valid : c.isValid = true) (sendable : Sendable c lookup)
    (order : u.Perm c.usage) (o : List (String × PromptOverride)) :
    router { c with usage := u, overrides := o } lookup =
      match u.find? fun v => decide (Unfound c v) with
      | some v => .error (.driverNotFound v.2)
      | none => (Router.routing (c.drivers.map (·.profile)) u (.ofConfig c.site.title o)
          c.site.defaultLang).provided := by
  obtain ⟨usable, distinct, served⟩ := Config.drivers_of_isValid valid
  have registers : Registry.ofProfiles (c.drivers.map (·.profile)) = .ok ⟨registered _⟩ :=
    Registry.ofProfiles_eq_ok.mpr ⟨named_registered usable, nodup_registered distinct, rfl⟩
  have able := able_of_served distinct fun v mem => served v (order.mem_iff.mp mem)
  rw [router_eq (c := { c with usage := u, overrides := o }) sendable]
  exact (Router.build_of_able registers able).trans (by simp only [isNone_get?])

theorem find?_perm (order : u.Perm c.usage) :
    (u.find? fun v => decide (Unfound c v)) = none ↔
      (c.usage.find? fun v => decide (Unfound c v)) = none := by
  simp only [List.find?_eq_none, order.mem_iff]

theorem startsAlike (valid : c.isValid = true) (keys : (c.usage.map (·.1)).Nodup)
    (order : u.Perm c.usage) :
    StartsAlike c o (router c lookup)
      (router { c with usage := u, overrides := o } lookup) := by
  by_cases sendable : Sendable c lookup
  case neg =>
    obtain ⟨fault, fails⟩ := router_of_not_sendable sendable
    rw [fails u o, show router c lookup = _ from fails c.usage c.overrides]
    exact .failed fault
  case pos =>
    have known : ∀ v ∈ c.usage, v.1 ∈ UsageKey.all :=
      fun v mem => ((Config.drivers_of_isValid valid).2.2 v mem).known
    have listed := router_of_perm valid sendable (List.Perm.refl c.usage) c.overrides
    rw [show router c lookup = _ from listed, router_of_perm valid sendable order o]
    cases first : c.usage.find? fun v => decide (Unfound c v) with
    | some v =>
        cases first' : u.find? fun v => decide (Unfound c v) with
        | none =>
            rw [find?_perm order, first] at first'
            cases first'
        | some w =>
            have mem' := order.mem_iff.mp (List.mem_of_find?_eq_some first')
            exact .unfound (List.mem_of_find?_eq_some first)
              (by simpa using List.find?_some first) mem' (by simpa using List.find?_some first')
    | none =>
        rw [(find?_perm order).mpr first]
        dsimp only
        unfold Router.provided
        dsimp only [Router.routing]
        split
        · exact .failed _
        · exact .built (Router.entryFor_perm order keys known) rfl rfl rfl

/-- Each driver that is not found is named in some order. -/
theorem exists_unfound (valid : c.isValid = true) (sendable : Sendable c lookup)
    {v : String × String} (mem : v ∈ c.usage) (unfound : Unfound c v) :
    ∃ u, u.Perm c.usage
      ∧ router { c with usage := u } lookup = .error (.driverNotFound v.2) := by
  obtain ⟨before, after, whole⟩ := List.append_of_mem mem
  have order : (v :: (before ++ after)).Perm c.usage := by
    rw [whole]
    exact List.perm_middle.symm
  refine ⟨_, order, ?_⟩
  rw [show router { c with usage := v :: (before ++ after) } lookup = _ from
    router_of_perm valid sendable order c.overrides, List.find?_cons_of_pos (by simpa using unfound)]

/-- An accepted configuration starts up alike in every order of its maps, and each driver that is
    not found is named in some order. The override for a tag is the same in every order if and
    only if those that concern the tag are all the same, and the prompts are then the same too. -/
theorem router_orders (c : Config) (lookup : String → Option String) (valid : c.isValid = true)
    (keys : (c.usage.map (·.1)).Nodup) :
    (∀ u o, u.Perm c.usage → o.Perm c.overrides →
        StartsAlike c o (router c lookup) (router { c with usage := u, overrides := o } lookup))
      ∧ (Sendable c lookup → ∀ v ∈ c.usage, Unfound c v → ∃ u, u.Perm c.usage
        ∧ router { c with usage := u } lookup = .error (.driverNotFound v.2))
      ∧ ∀ tag,
        ((∀ o, o.Perm c.overrides →
            (PromptAssembler.ofConfig c.site.title o).overrideFor tag
              = (PromptAssembler.ofConfig c.site.title c.overrides).overrideFor tag) ↔
          PromptAssembler.Settled c.overrides tag)
        ∧ (PromptAssembler.Settled c.overrides tag → ∀ o, o.Perm c.overrides →
          ∀ kind vars evidence space,
            (PromptAssembler.ofConfig c.site.title o).build kind tag vars evidence space
              = (PromptAssembler.ofConfig c.site.title c.overrides).build kind tag vars evidence
                space) := by
  refine ⟨fun u o order _ => startsAlike valid keys order, fun sendable v mem =>
    exists_unfound valid sendable mem, fun tag => ⟨PromptAssembler.overrideFor_perm_iff, ?_⟩⟩
  intro settled o order
  exact PromptAssembler.build_congr rfl (PromptAssembler.overrideFor_perm order settled)

section Site

/-- A site with one driver that does everything its usage entries ask for. -/
def site (overrides : List (String × PromptOverride)) : Config where
  drivers := [
    { name := "Local", endpoint := "http://a", chatModel := some "m", embeddingModel := some "e",
      rerankModel := some "r" }]
  usage := [("query", "local"), ("rerank", " LOCAL")]
  overrides := overrides

/-- Validation does not look at the overrides. -/
theorem isValid_site (overrides : List (String × PromptOverride)) :
    (site overrides).isValid = true := by
  change (site []).isValid = true
  rw [Config.isValid, Config.problems, Config.sortedUsage_of_pairwise (by decide)]
  decide +kernel

/-- Both maps are turned round. -/
theorem router_orders_turned :
    let c := site [("en", { header := some "A" }), (" ZH", { header := some "B" })]
    let u := [("rerank", " LOCAL"), ("query", "local")]
    let o : List (String × PromptOverride) :=
      [(" ZH", { header := some "B" }), ("en", { header := some "A" })]
    c.isValid = true ∧ (c.usage.map (·.1)).Nodup ∧ u.Perm c.usage ∧ o.Perm c.overrides
      ∧ ∃ r r', router c (fun _ => none) = .ok r
        ∧ router { c with usage := u, overrides := o } (fun _ => none) = .ok r'
        ∧ (∀ key, r'.entryFor key = r.entryFor key)
        ∧ ∀ tag kind vars evidence space,
          r'.prompts.build kind tag vars evidence space
            = r.prompts.build kind tag vars evidence space := by
  intro c u o
  have valid : c.isValid = true := isValid_site _
  have keys : (c.usage.map (·.1)).Nodup := by decide
  have order : u.Perm c.usage := List.Perm.swap ("query", "local") _ _
  have order' : o.Perm c.overrides := List.Perm.swap ("en", _) _ _
  have settled (tag : String) : PromptAssembler.Settled c.overrides tag :=
    PromptAssembler.settled_of_nodup (by decide +kernel) tag
  obtain ⟨alike, -, prompts⟩ := router_orders c (fun _ => none) valid keys
  have starts : (router c fun _ => none).toOption.isSome = true := by decide +kernel
  have alike := alike u o order order'
  generalize router c (fun _ => none) = first at alike starts
  generalize router { c with usage := u, overrides := o } (fun _ => none) = second at alike
  cases alike with
  | @built r r' routes lang first second =>
      refine ⟨valid, keys, order, order', r, r', rfl, rfl, routes, ?_⟩
      intro tag kind vars evidence space
      rw [first, second]
      exact (prompts tag).2 (settled tag) o order' kind vars evidence space
  | failed | unfound => simp [Except.toOption] at starts

/-- Two spellings of one tag are accepted, and the header of the one that comes last is taken. -/
theorem router_orders_colliding :
    let c := site [("en", { header := some "A" }), ("EN", { header := some "B" })]
    let o : List (String × PromptOverride) :=
      [("EN", { header := some "B" }), ("en", { header := some "A" })]
    c.isValid = true ∧ (c.usage.map (·.1)).Nodup ∧ (c.overrides.map (·.1)).Nodup
      ∧ o.Perm c.overrides
      ∧ ∃ r r', router c (fun _ => none) = .ok r
        ∧ router { c with overrides := o } (fun _ => none) = .ok r'
        ∧ ∀ kind vars evidence space,
          r'.prompts.build kind "en" vars evidence space
            ≠ r.prompts.build kind "en" vars evidence space := by
  intro c o
  let started (o : List (String × PromptOverride)) : Router :=
    Router.routing (c.drivers.map (·.profile)) c.usage (.ofConfig c.site.title o) c.site.defaultLang
  have starts : router c (fun _ => none) = .ok (started c.overrides) := by decide +kernel
  have starts' : router { c with overrides := o } (fun _ => none) = .ok (started o) := by
    decide +kernel
  refine ⟨isValid_site _, by decide, by decide, List.Perm.swap ("en", _) _ _, _, _, starts, starts',
    ?_⟩
  intro kind vars evidence space same
  have taken : (started c.overrides).prompts.overrideFor "en" = some { header := some "B" } := by
    decide +kernel
  have taken' : (started o).prompts.overrideFor "en" = some { header := some "A" } := by
    decide +kernel
  obtain ⟨rest, text⟩ :=
    PromptAssembler.exists_build_eq (started c.overrides).prompts kind "en" vars evidence space
  obtain ⟨rest', text'⟩ :=
    PromptAssembler.exists_build_eq (started o).prompts kind "en" vars evidence space
  rw [text, text', taken, taken'] at same
  have same := congrArg String.toList same
  have kept : pieces Slot.tokens (trimmedEnd "A").toList = [.letter 'A'] := by decide +kernel
  have kept' : pieces Slot.tokens (trimmedEnd "B").toList = [.letter 'B'] := by decide +kernel
  simp [toList_substitute_slots, kept, kept', Substitution.Piece.filled] at same

end Site

end Command

end NoteAssistant
