import NoteAssistant.Backend.World
import NoteAssistant.Json.Reading
import NoteAssistant.Routing.Router
import NoteAssistant.Text.Fence

/-! # Jobs

Work that is done by one call to the driver that serves its usage key.
-/

namespace NoteAssistant

/-- A condensed text. -/
structure Summary where
  summary : String
  title : String
  tags : List String
  model : String
  usage : TokenUsage
  deriving DecidableEq, Repr

/-- A text cut into pieces. -/
structure Chunks where
  chunks : List String
  model : String
  usage : TokenUsage
  deriving DecidableEq, Repr

/-- The parts of a summary as a model writes them. -/
structure SummaryParts where
  summary : String
  title : String
  tags : List String
  deriving DecidableEq, Repr

/-- The JSON text that a model's reply holds, without code fence. -/
def fencedJson (reply : String) : String := String.ofList (Text.unfenced reply.toList)

namespace SummaryParts

def reading : Json.Reading SummaryParts := fun level t => do
  let f ← Json.Reading.fields ["summary", "title", "tags"] level t
  let summary ← f.withDefault "summary" .string ""
  let title ← f.withDefault "title" .string ""
  let tags ← f.withDefault "tags" (.list .string) []
  some ⟨summary, title, tags⟩

/-- The parts that a reply holds; a reply of any other form is a summary as it is. -/
def ofReply (reply : String) : SummaryParts :=
  (reading.parse? (fencedJson reply)).getD ⟨trimmed reply, "", []⟩

end SummaryParts

/-- The texts of a reply that is a JSON array of strings. -/
def textsOfReply? (reply : String) : Option (List String) :=
  (Json.Reading.list .string).parse? (fencedJson reply)

namespace ChatRequest

def ofImages (system : Option String) (prompt : String) (images : List String) : ChatRequest :=
  plain system [⟨.user, prompt, images⟩]

end ChatRequest

namespace Router

open Run (complete)

/-- A step that cannot fail for lack of anything but its value. -/
def lift {α : Type} : Except Fault α → Run α
  | .ok a => pure a
  | .error e => throw e

def query (r : Router) (request : ChatRequest) : Run ChatResponse := do
  complete (← lift (r.chat UsageKey.query)) none request

/-- Opens a stream at the driver that answers queries. -/
def openStream (r : Router) (request : ChatRequest) : Run (List StreamStep) := do
  Run.openStream (← lift (r.chat UsageKey.query)) request

def vision (r : Router) (request : ChatRequest) : Run ChatResponse := do
  Run.view (← lift r.viewer) request

/-- The instruction of a job that needs neither query nor evidence. -/
def instruction (r : Router) (kind : PromptKind) (lang : String) (now : Local) : String :=
  r.prompts.build kind lang ⟨now, "", ""⟩ [] none

/-- A description by which an image can be found. -/
def describeImage (r : Router) (url lang : String) (now : Local) : Run String := do
  let reply ← r.vision (.ofImages none (r.instruction .describeImage lang now) [url])
  pure reply.content

def workOn (r : Router) (key : String) (kind : PromptKind) (text lang : String) (now : Local) :
    Run ChatResponse := do
  let driver ← lift (r.chat key)
  complete driver none (.plain (some (r.instruction kind lang now)) [.ofUser text])

def summarize (r : Router) (text lang : String) (now : Local) : Run Summary := do
  let reply ← r.workOn UsageKey.summary .summary text lang now
  let parts := SummaryParts.ofReply reply.content
  pure ⟨parts.summary, parts.title, parts.tags, reply.model, reply.usage⟩

def chunk (r : Router) (text lang : String) (now : Local) : Run Chunks := do
  let reply ← r.workOn UsageKey.chunk .chunk text lang now
  match textsOfReply? reply.content with
  | some chunks => pure ⟨chunks, reply.model, reply.usage⟩
  | none => throw (.provider "chunk output is not a JSON array of strings")

def embedQuery (r : Router) (limit : Option Nat) (texts : List String) :
    Run EmbeddingOutput := do
  Run.embedQuery (← lift (r.embedding UsageKey.embeddingQuery)) limit texts

/-- The text under which a piece of a document is embedded. -/
def titled (title text : String) : String :=
  if isBlankText title then text else trimmed title ++ "\n" ++ text

def embedDocument (r : Router) (title : String) (texts : List String) :
    Run EmbeddingOutput := do
  let driver ← lift (r.embedding UsageKey.embeddingDocument)
  Run.embedDocuments driver (texts.map (titled title))

def rerank (r : Router) (query : String) (docs : List RerankDoc) : Run RerankOutput := do
  Run.rerank (← lift r.reranker) none query docs

def read (r : Router) (url : String) : Run ReaderOutput := do
  Run.read (← lift r.reader) url

end Router

end NoteAssistant
