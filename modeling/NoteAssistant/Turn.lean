import NoteAssistant.Reply.Schedule
import NoteAssistant.Retrieval.Enhancement
import NoteAssistant.Retrieval.Retriever

/-! # A turn of a conversation

A turn takes the history of its session, enhances the query, retrieves evidence
for it, and opens the stream from which the reply is made. Listeners are told about
the steps by tool tips.
-/

namespace NoteAssistant

/-- Where events go. -/
structure Sink where
  /-- Whether the event at a place among all events is taken. -/
  accepts : Nat → Bool

namespace Sink

def working : Sink := ⟨fun _ => true⟩
def broken : Sink := ⟨fun _ => false⟩

/-- The events that a sink has taken. -/
def received (s : Sink) (emitted : List Event) : List Event :=
  (emitted.zipIdx.filter fun (_, i) => s.accepts i).map (·.1)

def closed : Fault := .internal "sink closed"

/-- Hands an event to a sink. -/
def offer (s : Sink) (event : Event) : Run Unit := do
  let place := (← get).emitted.length
  Run.emit event
  if s.accepts place then pure () else throw closed

end Sink

structure TurnRequest where
  space : String
  user : String
  session : String
  query : String
  resources : List String
  /-- The message that is replied with. -/
  message : String
  /-- The language of the prompt, if not that of the driver. -/
  lang : Option String
  spacePrompt : Option SpacePrompt
  now : Local
  deriving DecidableEq, Repr

structure TurnOutcome where
  enhanced : EnhancedQuery
  /-- The documents in the prompt. -/
  evidence : List String
  rerank : RerankStatus
  /-- What the preparation of the reply cost. -/
  usage : List UsageRecord
  reply : List Choice
  deriving DecidableEq, Repr

structure Assistant where
  retriever : Retriever
  history : HistoryStore
  /-- Whether there is a sink for tool tips. -/
  watched : Bool
  stream : StreamConfig
  sink : Sink := .working

namespace Tool

def enhance := "enhance_query"
def search := "knowledge_search"
def rerank := "rerank"

end Tool

namespace Assistant

def router (a : Assistant) : Router := a.retriever.router

def rag (a : Assistant) : RagConfig := a.retriever.rag

/-- Tells the sink, if there is one, about a step. The turn goes on if it is not taken. -/
def tip (a : Assistant) (q : TurnRequest) (tool : String) (status : ToolStatus)
    (detail : String) : Run Unit := do
  if a.watched then
    let _ ← Run.attempt (a.sink.offer (.tip ⟨q.message, tool, status, detail⟩))

/-- A history without the query at its end, if it is there already. -/
def priorMessages (query : String) (history : List HistoryMessage) : List HistoryMessage :=
  match history.getLast? with
  | some m =>
    if m.role = .user && trimmed m.content = trimmed query then history.dropLast else history
  | none => history

/-- The history of a turn; none if the store fails. -/
def loadHistory (a : Assistant) (q : TurnRequest) : List HistoryMessage :=
  match a.history.recent q.session a.rag.historyWindow with
  | .ok history => priorMessages q.query history
  | .error _ => []

/-- The enhanced query, or the query as it is if it cannot be enhanced. -/
def enhance (a : Assistant) (q : TurnRequest) (history : List HistoryMessage) (lang : String) :
    Run EnhancedQuery := do
  let limit := some a.rag.enhanceTimeoutMs
  match ← Run.attempt (Enhancement.enhance a.router a.rag limit q.query history lang q.now) with
  | .ok enhanced => pure enhanced
  | .error _ =>
    a.tip q Tool.enhance .failed "using original query"
    pure (.plain q.query)

def retrieve (a : Assistant) (q : TurnRequest) (enhanced : EnhancedQuery) :
    Run RetrievalOutcome := do
  a.tip q Tool.search .running "searching knowledge base"
  let request : RetrievalRequest :=
    ⟨q.space, some q.user, enhanced.text, some q.query, q.resources, some q.session⟩
  match ← Run.attempt (a.retriever.retrieve request) with
  | .error e =>
    a.tip q Tool.search .failed e.message
    throw e
  | .ok outcome =>
    a.tip q Tool.search .success s!"{outcome.docs.length} documents"
    if outcome.rerank = .degraded then
      a.tip q Tool.rerank .failed "rerank unavailable, using retrieval order"
    pure outcome

/-- The messages of a history as a model receives them. -/
def chatMessages (history : List HistoryMessage) : List ChatMessage :=
  history.filterMap fun m =>
    match m.role with
    | .system => none
    | role => some ⟨role, m.content, []⟩

def request (a : Assistant) (q : TurnRequest) (history : List HistoryMessage) (lang : String)
    (docs : List EvidenceDoc) : ChatRequest :=
  let transcript := Transcript.condense history a.rag.assistantTruncateChars
  let system := a.router.prompts.build .rag lang ⟨q.now, q.query, transcript⟩ docs q.spacePrompt
  .plain (some system) (chatMessages history ++ [.ofUser q.query])

/-- Answers a query. A cancellation, at some moment of the clock, is noticed between
    the steps, and then by the reply itself. -/
def turn (a : Assistant) (q : TurnRequest) (cancelAt : Option Nat) : Run TurnOutcome := do
  let lang := q.lang.getD a.router.lang
  let history := a.loadHistory q
  Run.ensureBefore cancelAt .cancelled
  let enhanced ← a.enhance q history lang
  Run.ensureBefore cancelAt .cancelled
  let outcome ← a.retrieve q enhanced
  Run.ensureBefore cancelAt .cancelled
  let steps ← a.router.openStream (a.request q history lang outcome.docs)
  let opened := (← get).clock
  pure {
    enhanced := enhanced
    evidence := outcome.docs.map (·.id)
    rerank := outcome.rerank
    usage := enhanced.usageRecord?.toList ++ outcome.usage
    reply := NoteAssistant.reply q.message steps (.ofDocs outcome.docs) a.stream
      (cancelAt.map (· - opened)) }

/-- Hands a reply to a sink, until an increment is not taken. -/
def forward (s : Sink) : List Choice → Run Unit
  | [] => pure ()
  | c :: cs => do
    s.offer (.choice c)
    forward s cs

end Assistant

end NoteAssistant
