import NoteAssistant.Usage

/-! # What a turn sends out -/

namespace NoteAssistant

inductive Increment where
  | text (s : String)
  | finish (reason : String)
  | usage (model : String) (usage : TokenUsage)
  | error (message : String)
  | cancelled
  | done
  deriving DecidableEq, Repr

/-- Increments that end a reply. -/
def Increment.isTerminal : Increment → Bool
  | error _ | cancelled | done => true
  | _ => false

/-- A numbered part of the reply to one message. -/
structure Choice where
  message : String
  sequence : Nat
  increment : Increment
  deriving DecidableEq, Repr

inductive ToolStatus where
  | running
  | success
  | failed
  deriving DecidableEq, Repr

namespace ToolStatus

def all : List ToolStatus := [running, success, failed]

def name : ToolStatus → String
  | running => "running"
  | success => "success"
  | failed => "failed"

def ofName? (s : String) : Option ToolStatus := all.find? (·.name = s)

end ToolStatus

/-- News about a step of the turn. -/
structure ToolTip where
  message : String
  tool : String
  status : ToolStatus
  detail : String
  deriving DecidableEq, Repr

inductive Event where
  | choice (c : Choice)
  | tip (t : ToolTip)
  deriving DecidableEq, Repr

end NoteAssistant
