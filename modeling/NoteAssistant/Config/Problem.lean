import NoteAssistant.Config.Location
import NoteAssistant.Config.Suggestion
import NoteAssistant.Capability

/-! # Configuration problems -/

namespace NoteAssistant

inductive Problem where
  /-- A key that a table does not have. -/
  | unknownKey (key : String) (table : String) (suggestion : Option String)
      (validKeys : List String)
  | invalidValue (key : String) (detail : String) (hint : String)
  | missingKey (key : String) (table : String)
  /-- A setting out of its range. -/
  | validation (message : String)
  /-- A driver that cannot be built. -/
  | driver (index : Nat) (message : String)
  /-- A usage entry whose driver is unknown or cannot serve it. -/
  | usage (key : String) (reason : String) (drivers : String)
  /-- A usage key that no job asks for. -/
  | unknownUsageKey (key : String) (suggestion : Option String)
  /-- A text that is not a configuration at all. -/
  | unreadable
  deriving DecidableEq, Repr

namespace Problem

/-- The word under which a problem is filed. -/
def code : Problem → String
  | unknownKey .. => "mnemo::config::unknown_key"
  | invalidValue .. => "mnemo::config::invalid_value"
  | missingKey .. => "mnemo::config::missing_key"
  | validation .. => "mnemo::config::validation"
  | driver .. => "mnemo::config::driver"
  | usage .. => "mnemo::config::usage"
  | unknownUsageKey .. => "mnemo::config::usage_key"
  | unreadable => "mnemo::config::other"

def message : Problem → String
  | unknownKey key table _ _ => s!"unknown key `{key}` in {table}"
  | invalidValue key detail _ => s!"invalid value for `{key}`: {detail}"
  | missingKey key table => s!"missing `{key}` in {table}"
  | validation message => "validation error: " ++ message
  | driver index message => s!"drivers[{index}]: {message}"
  | usage key reason _ => s!"usage entry `{key}` is invalid: {reason}"
  | unknownUsageKey key _ => s!"unknown usage key `{key}`"
  | unreadable => "configuration error:"

def keyHelp (suggestion : Option String) (validKeys : String) : String :=
  match suggestion with
  | some s => s!"did you mean `{s}`? Valid keys: {validKeys}"
  | none => "valid keys: " ++ validKeys

def help : Problem → Option String
  | unknownKey _ _ suggestion validKeys =>
    some (keyHelp suggestion (String.intercalate ", " validKeys))
  | invalidValue _ _ hint => some hint
  | missingKey key table => some s!"add `{key} = ...` to {table}"
  | validation _ => none
  | driver .. => some ("each [[drivers]] entry needs a unique name, an http(s) endpoint, " ++
      "and at least one *_model")
  | usage _ _ drivers => some ("configured drivers: " ++ drivers)
  | unknownUsageKey _ suggestion =>
    some (keyHelp suggestion (String.intercalate ", " UsageKey.all))
  | unreadable => none

end Problem

/-- A problem with the place it is found at. -/
structure Report where
  problem : Problem
  place : Option Place
  deriving DecidableEq, Repr

namespace Report

/-- Points a finding at the entry it is about, in the first source that has it. -/
def locate (sources : List Source) (p : Problem) : Report :=
  match p with
  | .usage key _ _ => ⟨p, Location.place? sources ["usage"] key⟩
  | .unknownUsageKey key _ => ⟨p, Location.place? sources ["usage"] key⟩
  | .driver index _ => ⟨p, Location.driverPlace? sources index⟩
  | _ => ⟨p, none⟩

end Report

end NoteAssistant
