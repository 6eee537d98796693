import NoteAssistant.Moment
import NoteAssistant.Number.Single
import NoteAssistant.Usage

/-! # Conversations with a model -/

namespace NoteAssistant

inductive ChatRole where
  | system
  | user
  | assistant
  deriving DecidableEq, Repr

namespace ChatRole

def all : List ChatRole := [system, user, assistant]

def name : ChatRole → String
  | system => "system"
  | user => "user"
  | assistant => "assistant"

def ofName? (s : String) : Option ChatRole := all.find? (·.name = s)

end ChatRole

structure ChatMessage where
  role : ChatRole
  content : String
  images : List String
  deriving DecidableEq, Repr

namespace ChatMessage

def ofUser (content : String) : ChatMessage := ⟨.user, content, []⟩

end ChatMessage

/-- What a model is asked; absent settings are left to the driver. -/
structure ChatRequest where
  model : Option String
  system : Option String
  messages : List ChatMessage
  maxTokens : Option UInt32
  temperature : Option Single
  deriving DecidableEq, Repr

namespace ChatRequest

/-- A request with an instruction and messages, everything else left open. -/
def plain (system : Option String) (messages : List ChatMessage) : ChatRequest :=
  ⟨none, system, messages, none, none⟩

end ChatRequest

structure ChatResponse where
  id : String
  content : String
  reasoning : Option String
  model : String
  finishReason : Option String
  usage : TokenUsage
  deriving DecidableEq, Repr

/-- One piece of a streamed reply; any of its parts may be absent. -/
structure Token where
  content : Option String
  reasoning : Option String
  finishReason : Option String
  usage : Option TokenUsage
  model : Option String
  error : Option String
  deriving DecidableEq, Repr

namespace Token

def empty : Token := ⟨none, none, none, none, none, none⟩

def ofContent (text : String) : Token := { empty with content := some text }

def ofFinish (reason : String) : Token := { empty with finishReason := some reason }

def ofUsage (model : String) (usage : TokenUsage) : Token :=
  { empty with usage := some usage, model := some model }

end Token

structure HistoryMessage where
  id : String
  session : String
  role : ChatRole
  content : String
  createdAt : Moment
  deriving DecidableEq, Repr

end NoteAssistant
