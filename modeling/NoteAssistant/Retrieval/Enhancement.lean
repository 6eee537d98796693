import NoteAssistant.Retrieval.Distinct
import NoteAssistant.Retrieval.Transcript
import NoteAssistant.Routing.Jobs

/-! # Enhancing queries

In a conversation that has gone on for a while a model is asked for other wordings
of the query, which are then searched for together with it.
-/

namespace NoteAssistant

/-- A query with other wordings of it. -/
structure EnhancedQuery where
  /-- The query as the user wrote it. -/
  asked : String
  alternatives : List String
  /-- The model that was asked, if one was. -/
  model : Option String
  usage : TokenUsage
  deriving DecidableEq, Repr

namespace EnhancedQuery

/-- A query as it is. -/
def plain (asked : String) : EnhancedQuery := ⟨asked, [], none, .zero⟩

def isEnhanced (q : EnhancedQuery) : Bool := q.model.isSome

/-- The text that is searched for: all wordings with spaces between them. -/
def text (q : EnhancedQuery) : String :=
  q.alternatives.foldl (fun text wording => text ++ " " ++ wording) q.asked

def usageRecord? (q : EnhancedQuery) : Option UsageRecord :=
  q.model.map fun model => ⟨UsageKey.enhanceQuery, model, q.usage⟩

end EnhancedQuery

namespace Enhancement

/-- The wordings worth searching for: not blank, not the query itself, none twice. -/
def cleaned (asked : String) (wordings : List String) : List String :=
  distinctBy id <| (wordings.map trimmed).filter fun w => w ≠ "" && w ≠ trimmed asked

def alternatives (reply asked : String) : Except Fault (List String) :=
  match textsOfReply? reply with
  | some wordings => .ok (cleaned asked wordings)
  | none => .error (.enhanceParse reply)

/-- The request for other wordings of a query. -/
def request (r : Router) (rag : RagConfig) (query : String) (history : List HistoryMessage)
    (lang : String) (now : Local) : ChatRequest :=
  let transcript := Transcript.condense history rag.assistantTruncateChars
  let system := r.prompts.build .enhanceQuery lang ⟨now, query, transcript⟩ [] none
  .plain (some system) [.ofUser query]

/-- Asks for other wordings, unless the history is too short for that. -/
def enhance (r : Router) (rag : RagConfig) (limit : Option Nat) (query : String)
    (history : List HistoryMessage) (lang : String) (now : Local) : Run EnhancedQuery := do
  if history.length < rag.enhanceMinHistory then pure (.plain query)
  else
    let driver ← Router.lift r.enhancer
    let reply ← Run.complete driver limit (request r rag query history lang now)
    let wordings ← Router.lift (alternatives reply.content query)
    pure ⟨query, wordings, some reply.model, reply.usage⟩

end Enhancement

end NoteAssistant
