import NoteAssistant.Capability
import NoteAssistant.Fault

/-! # The registry of drivers

Drivers are registered in an order and found by name. Names differ in more than
the case of their letters.
-/

namespace NoteAssistant

structure DriverProfile where
  name : String
  /-- The language that prompts for it are written in; empty for none. -/
  lang : String
  offered : List Capability
  deriving DecidableEq, Repr

structure DriverEntry where
  /-- The name in lower case. -/
  name : String
  lang : String
  offered : List Capability
  /-- Drivers registered before this one. -/
  place : Nat
  deriving DecidableEq, Repr

namespace DriverEntry

/-- A driver that chats also enhances queries. -/
def supports (e : DriverEntry) (c : Capability) : Bool :=
  match c with
  | .enhance => e.offered.contains .chat
  | c => e.offered.contains c

/-- What the driver supports, in the order of all capabilities. -/
def capabilities (e : DriverEntry) : List Capability := Capability.all.filter e.supports

end DriverEntry

/-- Registered drivers in the order of their registration. -/
structure Registry where
  entries : List DriverEntry
  deriving DecidableEq, Repr

namespace Registry

def empty : Registry := ⟨[]⟩

/-- The driver with a name, whatever its case and the blanks around it. -/
def get? (r : Registry) (name : String) : Option DriverEntry :=
  r.entries.find? (·.name = nameKey name)

/-- The driver that was registered first among those with a capability. -/
def first? (r : Registry) (c : Capability) : Option DriverEntry :=
  r.entries.find? (·.supports c)

def register (r : Registry) (p : DriverProfile) : Except Fault Registry :=
  let name := lowered p.name
  if name = "" then .error (.config "driver name must not be empty")
  else if r.entries.any (·.name = name) then
    .error (.config s!"driver `{name}` registered twice")
  else .ok ⟨r.entries ++ [⟨name, p.lang, p.offered, r.entries.length⟩]⟩

/-- The registry of a list of drivers. -/
def ofProfiles (ps : List DriverProfile) : Except Fault Registry := ps.foldlM register empty

end Registry

end NoteAssistant
