import NoteAssistant.Config.Model
import NoteAssistant.Routing.Registry
import NoteAssistant.Wire.Ranking
import NoteAssistant.Wire.Request
import NoteAssistant.Wire.Status

/-! # Drivers for completion services

A driver that speaks to a service over HTTP. Each model that is configured for it
gives it a capability.
-/

namespace NoteAssistant.Wire

/-- A request by which JSON is posted. -/
structure HttpRequest where
  path : String
  authorization : Option String
  body : String
  deriving DecidableEq, Repr

structure HttpResponse where
  status : Nat
  body : List UInt8
  deriving DecidableEq, Repr

/-- What is at the other end. -/
inductive Endpoint where
  /-- No connection comes about. -/
  | unreachable
  /-- These responses are given in order, and after them that nothing is found. -/
  | responding (responses : List HttpResponse)
  deriving DecidableEq, Repr

/-- An endpoint and the requests that have reached it. -/
structure Exchange where
  endpoint : Endpoint
  requests : List HttpRequest
  deriving DecidableEq, Repr

abbrev Call := ExceptT Fault (StateM Exchange)

namespace Exchange

def send (x : Exchange) (r : HttpRequest) : Option HttpResponse × Exchange :=
  match x.endpoint with
  | .unreachable => (none, x)
  | .responding [] => (some ⟨404, []⟩, { x with requests := x.requests ++ [r] })
  | .responding (response :: rest) =>
    (some response, ⟨.responding rest, x.requests ++ [r]⟩)

end Exchange

/-- A driver as configured, with the address it speaks to and its key. -/
structure Service where
  config : DriverConfig
  base : String
  key : Option String
  deriving DecidableEq, Repr

namespace Service

/-- The environment variable for the key of a driver that has none configured. -/
def keyVariable (name : String) : String :=
  String.ofList (name.toList.map fun c => if c.isAlphanum then c.toUpper else '_') ++ "_API_KEY"

/-- Characters that a header may hold. -/
def isHeaderChar (c : Char) : Bool := c = '\t' || (32 ≤ c.toNat && c.toNat ≠ 127)

/-- The key of a driver: the configured one, or else that of its variable. -/
def keyOf (c : DriverConfig) (lookup : String → Option String) : Option String :=
  (c.apiKey.filter (· ≠ "")).or ((lookup (keyVariable c.name)).filter (· ≠ ""))

/-- An address without the slashes at its end. -/
def baseOf (endpoint : String) : String :=
  String.ofList (endpoint.toList.reverse.dropWhile (· = '/')).reverse

def ofConfig (c : DriverConfig) (lookup : String → Option String) : Except Fault Service :=
  let key := keyOf c lookup
  if key.all fun k => k.toList.all isHeaderChar then .ok ⟨c, baseOf c.endpoint, key⟩
  else .error (.config "invalid API key header value: failed to parse header value")

def profile (s : Service) : DriverProfile := ⟨s.config.name, s.config.lang, s.config.capabilities⟩

def send (request : HttpRequest) : Call (Option HttpResponse) := fun x =>
  let (response, x) := x.send request
  (.ok response, x)

def bodyText (r : HttpResponse) : String := String.ofList (Text.Utf8.decodeLossy r.body)

/-- What a response that is no success says. -/
def refusal (r : HttpResponse) : Fault :=
  let status := Status.text r.status
  match ErrorReport.replyReading.parse? (bodyText r) with
  | some e => .provider s!"API error ({status}) {e.text}"
  | none => .provider s!"API returned {status}: {bodyText r}"

/-- Posts a request until it succeeds; after a transient failure it is tried again,
    at most `retries` times. -/
def postWithin (request : HttpRequest) (retries : Nat) : Call HttpResponse := do
  match ← send request with
  | none => throw (.provider "HTTP request failed:")
  | some response =>
    if Status.isSuccess response.status then pure response
    else
      match retries with
      | 0 => throw (refusal response)
      | n + 1 =>
        if Status.isTransient response.status then postWithin request n
        else throw (refusal response)

def post (s : Service) (path : String) (body : Json.Tree) : Call HttpResponse :=
  postWithin ⟨s.base ++ path, s.key.map ("Bearer " ++ ·), body.text⟩ 1

/-- Posts a request and reads the JSON of the response. -/
def postJson {α : Type} (s : Service) (path : String) (body : Json.Tree)
    (reading : Json.Reading α) : Call α := do
  let response ← s.post path body
  match reading.parse? (bodyText response) with
  | some a => pure a
  | none => throw (.provider s!"failed to parse API response from {path}:")

def model (configured : Option String) (capability : Capability) : Call String :=
  match configured with
  | some m => pure m
  | none => throw (.unsupported capability.name)

def nonEmptyOr (text fallback : String) : String := if text = "" then fallback else text

def usageOf (u : Option UsageReport) : TokenUsage := (u.map UsageReport.usage).getD .zero

/-- The reply that a service has finished, of which the first choice counts. -/
def response (r : CompletionReply) (requested : String) : ChatResponse :=
  let choice := r.choices.head?
  { id := r.id
    content := (choice.bind (·.content)).getD ""
    reasoning := (choice.bind (·.reasoning)).filter (· ≠ "")
    model := nonEmptyOr r.model requested
    finishReason := choice.bind (·.finishReason)
    usage := usageOf r.usage }

def completions : String := "/chat/completions"

/-- Asks for a reply from a model, unless the request names another one. -/
def completeWith (s : Service) (model : String) (r : ChatRequest) : Call ChatResponse := do
  let model := r.model.getD model
  let reply ← s.postJson completions (Request.completion model r false) CompletionReply.reading
  pure (response reply model)

def complete (s : Service) (r : ChatRequest) : Call ChatResponse := do
  s.completeWith (← model s.config.chatModel .chat) r

def view (s : Service) (r : ChatRequest) : Call ChatResponse := do
  s.completeWith (← model s.config.visionModel .vision) r

def stream (s : Service) (r : ChatRequest) : Call (List (Except Fault Token)) := do
  let model := r.model.getD (← model s.config.chatModel .chat)
  let response ← s.post completions (Request.completion model r true)
  pure (tokens (EventStream.items [response.body]))

/-- The vectors of texts; for no texts no one is asked. -/
def embed (s : Service) (texts : List String) : Call EmbeddingOutput := do
  let model ← model s.config.embeddingModel .embedding
  if texts.isEmpty then pure ⟨[], model, .zero⟩
  else
    let reply ← s.postJson "/embeddings" (Request.embeddings model texts) EmbeddingReply.reading
    pure ⟨reply.vectors, nonEmptyOr reply.model model, usageOf reply.usage⟩

/-- The fault of a call as one of reranking. -/
def asRerankFault {α : Type} (call : Call α) : Call α := tryCatch call fun e => throw (.rerank e.message)

def rerank (s : Service) (query : String) (docs : List RerankDoc) : Call RerankOutput := do
  let model ← model s.config.rerankModel .rerank
  let reply ← asRerankFault <|
    s.postJson "/rerank" (Request.ranking model query docs) RankingReply.reading
  pure ⟨reply.ranked docs, (reply.model.filter (· ≠ "")).getD model, usageOf reply.usage⟩

end Service

end NoteAssistant.Wire
