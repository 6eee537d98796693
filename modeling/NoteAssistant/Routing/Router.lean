import NoteAssistant.Prompt.Assembly
import NoteAssistant.Routing.Registry

/-! # Routing jobs to drivers

A usage key is served by the driver that the configuration names for it, or else
by the first registered driver with the capability that the key needs.
-/

namespace NoteAssistant

structure Router where
  registry : Registry
  /-- Names of drivers by usage key, the latest binding first. -/
  usage : List (String × String)
  prompts : PromptAssembler
  defaultLang : String
  deriving DecidableEq, Repr

namespace Router

/-- Binds one usage key, in front of the bindings made so far. -/
def bindUsage (r : Registry) (bound : List (String × String)) (entry : String × String) :
    Except Fault (List (String × String)) :=
  let key := nameKey entry.1
  let capability := Capability.ofUsageKey key
  match r.get? entry.2 with
  | none => .error (.driverNotFound entry.2)
  | some e =>
    if e.supports capability then .ok ((key, e.name) :: bound)
    else
      .error (.config (s!"usage `{key}` routes to driver `{e.name}`, which does not provide " ++
        capability.name))

/-- Capabilities without which there is no router. -/
def mandatory : List Capability := [.chat, .embedding]

/-- Registers the drivers, binds the usage keys, and checks that the mandatory
    capabilities are there. -/
def build (profiles : List DriverProfile) (usage : List (String × String))
    (prompts : PromptAssembler) (defaultLang : String) : Except Fault Router := do
  let registry ← Registry.ofProfiles profiles
  let bound ← usage.foldlM (bindUsage registry) []
  match mandatory.find? fun c => (registry.first? c).isNone with
  | some c =>
    .error (.config s!"no registered driver provides {c.name}; at least one is required")
  | none => .ok ⟨registry, bound, prompts, defaultLang⟩

def bound? (r : Router) (key : String) : Option DriverEntry :=
  (r.usage.lookup (nameKey key)).bind r.registry.get?

def entryFor (r : Router) (key : String) : Except Fault DriverEntry :=
  match (r.bound? key).or (r.registry.first? (.ofUsageKey key)) with
  | some e => .ok e
  | none => .error (.unsupported (nameKey key))

/-- The driver that serves a key, provided that it has a capability. -/
def resolve (r : Router) (c : Capability) (key : String) : Except Fault DriverEntry := do
  let e ← r.entryFor key
  if e.supports c then .ok e else .error (.unsupported key)

def chat (r : Router) (key : String) : Except Fault DriverEntry := r.resolve .chat key
def embedding (r : Router) (key : String) : Except Fault DriverEntry := r.resolve .embedding key
def reranker (r : Router) : Except Fault DriverEntry := r.resolve .rerank UsageKey.rerank
def viewer (r : Router) : Except Fault DriverEntry := r.resolve .vision UsageKey.vision
def reader (r : Router) : Except Fault DriverEntry := r.resolve .reader UsageKey.reader
def enhancer (r : Router) : Except Fault DriverEntry := r.chat UsageKey.enhanceQuery

/-- The language of the driver that answers queries, or else the default one. -/
def lang (r : Router) : String :=
  match r.entryFor UsageKey.query with
  | .ok e => if e.lang = "" then r.defaultLang else e.lang
  | .error _ => r.defaultLang

/-- The name of the driver that serves each usage key. -/
def table (r : Router) : List (String × Option String) :=
  UsageKey.all.map fun key => (key, (r.entryFor key).toOption.map (·.name))

end Router

end NoteAssistant
