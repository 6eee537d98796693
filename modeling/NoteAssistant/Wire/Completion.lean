import NoteAssistant.Chat
import NoteAssistant.Json.Reading
import NoteAssistant.Text.Blank
import NoteAssistant.Wire.EventStream
import NoteAssistant.Fault

/-! # Replies of a completion service

The parts of a service's JSON replies that matter here, and the tokens that a
streamed reply is made of.
-/

namespace NoteAssistant.Wire

open Json (Reading)

/-- Token counts as a service reports them. -/
structure UsageReport where
  prompt : UInt32
  completion : UInt32
  total : UInt32
  deriving DecidableEq, Repr

namespace UsageReport

/-- A service that reports only a total has all of it counted as input. -/
def usage (u : UsageReport) : TokenUsage :=
  ⟨if u.prompt = 0 ∧ u.completion = 0 then u.total else u.prompt, u.completion⟩

def reading : Reading UsageReport := fun level t => do
  let f ← Reading.fields ["prompt_tokens", "completion_tokens", "total_tokens"] level t
  some ⟨← f.withDefault "prompt_tokens" Reading.word 0,
    ← f.withDefault "completion_tokens" Reading.word 0,
    ← f.withDefault "total_tokens" Reading.word 0⟩

end UsageReport

/-- An error as a service reports it. -/
structure ErrorReport where
  message : String
  kind : Option String
  deriving DecidableEq, Repr

namespace ErrorReport

def text (e : ErrorReport) : String :=
  match e.kind with
  | some kind => kind ++ ": " ++ e.message
  | none => e.message

def reading : Reading ErrorReport := fun level t => do
  let f ← Reading.fields ["message", "type"] level t
  some ⟨← f.withDefault "message" Reading.string "",
    ← f.withDefault "type" (Reading.nullable Reading.string) none⟩

def replyReading : Reading ErrorReport := fun level t => do
  let f ← Reading.fields ["error"] level t
  f.required "error" reading

end ErrorReport

structure ReplyChoice where
  content : Option String
  reasoning : Option String
  finishReason : Option String
  deriving DecidableEq, Repr

structure CompletionReply where
  id : String
  model : String
  choices : List ReplyChoice
  usage : Option UsageReport
  deriving DecidableEq, Repr

/-- What a message or a delta holds: content and reasoning. -/
def contentReading : Reading (Option String × Option String) := fun level t => do
  let f ← Reading.fields ["content", "reasoning_content"] level t
  some (← f.withDefault "content" (Reading.nullable Reading.string) none,
    ← f.withDefault "reasoning_content" (Reading.nullable Reading.string) none)

def ReplyChoice.reading : Reading ReplyChoice := fun level t => do
  let f ← Reading.fields ["message", "finish_reason"] level t
  let (content, reasoning) ← f.required "message" contentReading
  some ⟨content, reasoning,
    ← f.withDefault "finish_reason" (Reading.nullable Reading.string) none⟩

def CompletionReply.reading : Reading CompletionReply := fun level t => do
  let f ← Reading.fields ["id", "model", "choices", "usage"] level t
  some ⟨← f.withDefault "id" Reading.string "", ← f.withDefault "model" Reading.string "",
    ← f.withDefault "choices" (Reading.list ReplyChoice.reading) [],
    ← f.withDefault "usage" (Reading.nullable UsageReport.reading) none⟩

structure Chunk where
  model : String
  choices : List ReplyChoice
  usage : Option UsageReport
  error : Option ErrorReport
  deriving DecidableEq, Repr

namespace Chunk

def choiceReading : Reading ReplyChoice := fun level t => do
  let f ← Reading.fields ["delta", "finish_reason"] level t
  let (content, reasoning) ← f.withDefault "delta" contentReading (none, none)
  some ⟨content, reasoning,
    ← f.withDefault "finish_reason" (Reading.nullable Reading.string) none⟩

def reading : Reading Chunk := fun level t => do
  let f ← Reading.fields ["model", "choices", "usage", "error"] level t
  some ⟨← f.withDefault "model" Reading.string "",
    ← f.withDefault "choices" (Reading.list choiceReading) [],
    ← f.withDefault "usage" (Reading.nullable UsageReport.reading) none,
    ← f.withDefault "error" (Reading.nullable ErrorReport.reading) none⟩

def nonEmpty (text : Option String) : Option String := text.filter (· ≠ "")

/-- The token of a chunk: the parts of its first choice that are not empty, its
    usage together with its model, and its error. -/
def token (c : Chunk) : Token where
  content := nonEmpty (c.choices.head?.bind (·.content))
  reasoning := nonEmpty (c.choices.head?.bind (·.reasoning))
  finishReason := nonEmpty (c.choices.head?.bind (·.finishReason))
  usage := c.usage.map UsageReport.usage
  model := c.usage.map fun _ => c.model
  error := c.error.map ErrorReport.text

end Chunk

/-- The data that ends a streamed reply. -/
def endMark : String := "[DONE]"

/-- The tokens and faults of a streamed reply, up to its end mark. A chunk that
    does not parse is a fault and the stream goes on; a chunk that says nothing
    is no token. -/
def tokens : List EventStream.Item → List (Except Fault Token)
  | [] => []
  | .broken :: rest => .error (.provider "SSE stream error:") :: tokens rest
  | .data data :: rest =>
    let data := trimmed data
    if data = endMark then []
    else if data = "" then tokens rest
    else match Chunk.reading.parse? data with
      | none => .error (.provider "failed to parse stream chunk:") :: tokens rest
      | some chunk =>
        if chunk.token = Token.empty then tokens rest else .ok chunk.token :: tokens rest

end NoteAssistant.Wire
