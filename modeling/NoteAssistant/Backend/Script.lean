import NoteAssistant.Chat
import NoteAssistant.Fault
import NoteAssistant.Knowledge
import NoteAssistant.Routing.Registry

/-! # Scripted drivers

A driver whose replies are laid down in advance. It answers calls from queues,
with a default when a queue is empty, and keeps a record of what it was asked.
-/

namespace NoteAssistant

inductive StreamStep where
  | token (t : Token)
  /-- The transport fails; the stream may go on. -/
  | fail (text : String)
  /-- Nothing arrives for some milliseconds. -/
  | pause (millis : Nat)
  /-- Nothing arrives any more, and the stream does not end. -/
  | hang
  deriving DecidableEq, Repr

namespace StreamStep

/-- What a stream yields, in order, to a reader with time enough. -/
def items : List StreamStep → List (Except Fault Token)
  | [] => []
  | token t :: steps => .ok t :: items steps
  | fail text :: steps => .error (.provider text) :: items steps
  | pause _ :: steps => items steps
  | hang :: _ => []

end StreamStep

/-- Scripted answers: values, or texts of failures. -/
abbrev Replies (α : Type) := List (Except String α)

/-- The calls that a driver has answered. One that was given up at its time limit is not among
    them. -/
structure DriverLog where
  requests : List ChatRequest
  embedInputs : List (List String)
  /-- Queries with the documents to be ranked for them. -/
  rerankInputs : List (String × List RerankDoc)
  deriving DecidableEq, Repr

structure ScriptedDriver where
  name : String
  lang : String
  offered : List Capability
  chat : Replies String
  embeddings : Replies (List (List Single))
  reranks : Replies (List RerankedDoc)
  streams : List (List StreamStep)
  /-- Milliseconds that pass before a chat reply. -/
  chatDelay : Nat
  embedDelay : Nat
  rerankDelay : Nat
  /-- Every attempt to open a stream fails with this text. -/
  openFailure : Option String
  /-- Every embedding of a query fails with this text. -/
  embedFailure : Option String
  log : DriverLog

namespace ScriptedDriver

/-- What every call costs. -/
def usage : TokenUsage := ⟨10, 20⟩

def defaultReply : String := "mock response"

/-- The capabilities of a driver for which none are given. -/
def defaultOffer : List Capability := [.chat, .embedding, .rerank, .vision]

def model (d : ScriptedDriver) : String := lowered d.name ++ "-model"

def profile (d : ScriptedDriver) : DriverProfile := ⟨d.name, d.lang, d.offered⟩

def record (d : ScriptedDriver) (request : ChatRequest) : ScriptedDriver :=
  { d with log := { d.log with requests := d.log.requests ++ [request] } }

/-- The reply with a text, numbered by the requests so far. -/
def response (d : ScriptedDriver) (text : String) : ChatResponse :=
  ⟨s!"mock-{d.log.requests.length}", text, none, d.model, some "stop", usage⟩

def complete (d : ScriptedDriver) (request : ChatRequest) :
    Except Fault ChatResponse × ScriptedDriver :=
  let d := d.record request
  match d.chat with
  | [] => (.ok (d.response defaultReply), d)
  | .ok text :: rest => (.ok (d.response text), { d with chat := rest })
  | .error text :: rest => (.error (.provider text), { d with chat := rest })

/-- The stream that is opened when none is scripted. -/
def defaultStream (d : ScriptedDriver) : List StreamStep :=
  [.token (.ofContent defaultReply), .token (.ofFinish "stop"), .token (.ofUsage d.model usage)]

/-- Opens a stream. A failed attempt is not noted. -/
def openStream (d : ScriptedDriver) (request : ChatRequest) :
    Except Fault (List StreamStep) × ScriptedDriver :=
  match d.openFailure with
  | some text => (.error (.provider text), d)
  | none =>
    let d := d.record request
    match d.streams with
    | [] => (.ok d.defaultStream, d)
    | steps :: rest => (.ok steps, { d with streams := rest })

/-- The vector of every text for which none is scripted: 0.1, 0.2, 0.3. -/
def defaultVector : List Single := [⟨0x3DCCCCCD⟩, ⟨0x3E4CCCCD⟩, ⟨0x3E99999A⟩]

def embedded (d : ScriptedDriver) (vectors : List (List Single)) : EmbeddingOutput :=
  ⟨vectors, d.model, usage⟩

def embedDocuments (d : ScriptedDriver) (texts : List String) :
    Except Fault EmbeddingOutput × ScriptedDriver :=
  let d := { d with log := { d.log with embedInputs := d.log.embedInputs ++ [texts] } }
  match d.embeddings with
  | [] => (.ok (d.embedded (texts.map fun _ => defaultVector)), d)
  | .ok vectors :: rest => (.ok (d.embedded vectors), { d with embeddings := rest })
  | .error text :: rest => (.error (.provider text), { d with embeddings := rest })

/-- Embeds texts of queries. A failure laid down for all of them is not noted. -/
def embedQuery (d : ScriptedDriver) (texts : List String) :
    Except Fault EmbeddingOutput × ScriptedDriver :=
  match d.embedFailure with
  | some text => (.error (.embedding text), d)
  | none => d.embedDocuments texts

/-- The score of the document at a place when none is scripted. -/
def defaultScore (place : Nat) : Single := Single.one - Single.ofNat place * ⟨0x3C23D70A⟩

def rerank (d : ScriptedDriver) (query : String) (docs : List RerankDoc) :
    Except Fault RerankOutput × ScriptedDriver :=
  let d := { d with log := { d.log with rerankInputs := d.log.rerankInputs ++ [(query, docs)] } }
  match d.reranks with
  | [] =>
    let ranked := docs.zipIdx.map fun (doc, i) => ⟨doc.id, defaultScore i⟩
    (.ok ⟨ranked, d.model, usage⟩, d)
  | .ok ranked :: rest => (.ok ⟨ranked, d.model, usage⟩, { d with reranks := rest })
  | .error text :: rest => (.error (.rerank text), { d with reranks := rest })

def read (d : ScriptedDriver) (url : String) : Except Fault ReaderOutput × ScriptedDriver :=
  (.ok ⟨url, "# " ++ url, usage⟩, d)

end ScriptedDriver

end NoteAssistant
