import NoteAssistant.Duration

/-! # Faults

The causes for which an operation of the assistant fails, and their wording.
-/

namespace NoteAssistant

inductive Fault where
  | config (text : String)
  /-- No driver provides the named capability. -/
  | unsupported (capability : String)
  | driverNotFound (name : String)
  /-- A backend failed or sent something unreadable. -/
  | provider (text : String)
  | embedding (text : String)
  | vectorStore (text : String)
  | storage (text : String)
  | decrypt (text : String)
  /-- The reply to an enhancement request is not a list of texts. -/
  | enhanceParse (raw : String)
  | rerank (text : String)
  | timeout (limit : Duration)
  | cancelled
  | internal (text : String)
  deriving DecidableEq, Repr

namespace Fault

def message : Fault → String
  | config text => "configuration error: " ++ text
  | unsupported capability => s!"unsupported feature: no driver provides `{capability}`"
  | driverNotFound name => "driver not found: " ++ name
  | provider text => "provider error: " ++ text
  | embedding text => "embedding error: " ++ text
  | vectorStore text => "vector store error: " ++ text
  | storage text => "storage error: " ++ text
  | decrypt text => "decrypt error: " ++ text
  | enhanceParse _ => "failed to parse enhanced queries:"
  | rerank text => "rerank error: " ++ text
  | timeout limit => "operation timed out after " ++ limit.text
  | cancelled => "operation cancelled"
  | internal text => "internal error: " ++ text

def isUnsupported : Fault → Bool
  | unsupported _ => true
  | _ => false

/-- Faults after which the step is skipped and the turn goes on. -/
def isDegradable : Fault → Bool
  | enhanceParse _ | rerank _ | timeout _ => true
  | _ => false

end Fault

end NoteAssistant
