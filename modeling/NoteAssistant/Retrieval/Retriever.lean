import NoteAssistant.Retrieval.Evidence
import NoteAssistant.Routing.Jobs
import NoteAssistant.Store

/-! # Retrieval

From a query to its evidence: the query is embedded, notes near it are searched
for, the candidates among them are loaded and reranked, and the notes pinned to
the session are added.
-/

namespace NoteAssistant

structure RetrievalRequest where
  space : String
  /-- The owner of the notes; any owner if absent. -/
  user : Option String
  query : String
  /-- What documents are ranked for, if not the query. -/
  rerankQuery : Option String
  resources : List String
  /-- The session whose pinned notes are added. -/
  session : Option String
  deriving DecidableEq, Repr

inductive RerankStatus where
  /-- The evidence is in the order of the reranker. -/
  | applied
  /-- There was no reranker, or nothing to put in order. -/
  | skipped
  /-- The reranker failed; the evidence is in the order of the search. -/
  | degraded
  deriving DecidableEq, Repr

namespace RerankStatus

def name : RerankStatus → String
  | applied => "applied"
  | skipped => "skipped"
  | degraded => "degraded"

end RerankStatus

structure RetrievalOutcome where
  candidates : CandidateSet
  docs : List EvidenceDoc
  usage : List UsageRecord
  rerank : RerankStatus
  /-- Best candidates that no record was found for. -/
  missingHighScore : Nat
  /-- Documents that were added because they are pinned. -/
  pinned : Nat
  deriving DecidableEq, Repr

/-- Documents after reranking, and what it took. -/
structure Reranking where
  status : RerankStatus
  docs : List EvidenceDoc
  /-- Documents that the reranker left out. -/
  dropped : List EvidenceDoc
  usage : List UsageRecord
  deriving DecidableEq, Repr

structure Retriever where
  router : Router
  vectors : VectorStore
  knowledge : KnowledgeStore
  pins : Option PinStore
  key : Option ContentKey
  rag : RagConfig

namespace Retriever

/-- A failed embedding as retrieval reports it. -/
def embeddingFault : Fault → Fault
  | .embedding text => .embedding text
  | .unsupported capability => .unsupported capability
  | .timeout limit => .timeout limit
  | e => .embedding e.message

def vector (output : EmbeddingOutput) : Except Fault (List Single) :=
  match output.vectors with
  | (x :: xs) :: _ => .ok (x :: xs)
  | _ => .error (.embedding "embedding returned no vectors")

def embed (r : Retriever) (query : String) : Run EmbeddingOutput := do
  match ← Run.attempt (r.router.embedQuery (some r.rag.embedTimeoutMs) [query]) with
  | .ok output => pure output
  | .error e => throw (embeddingFault e)

def search (r : Retriever) (q : RetrievalRequest) (vector : List Single) :
    Run (List VectorMatch) := do
  let filter : VectorFilter := ⟨q.space, q.user, q.resources⟩
  Run.noteSearch ⟨filter, r.rag.topK⟩
  Router.lift (r.vectors.search filter vector r.rag.topK)

/-- The documents of candidates. No store is asked for none. -/
def hydrate (r : Retriever) (space : String) (c : CandidateSet) :
    Except Fault (List EvidenceDoc) :=
  if c.matched.isEmpty then .ok []
  else
    match r.knowledge.list ⟨space, c.ids⟩ with
    | .error e => .error e
    | .ok records => Evidence.hydrate r.key records c.matched

/-- Asks the reranker about a query and two documents or more. Whatever goes wrong, the
    documents stay as they are. -/
def rerank (r : Retriever) (query : String) (docs : List EvidenceDoc) : Run Reranking := do
  if docs.length < 2 then pure ⟨.skipped, docs, [], []⟩
  else
    match r.router.reranker with
    | .error _ => pure ⟨.skipped, docs, [], []⟩
    | .ok driver =>
      let inputs := docs.map fun d => ⟨d.id, d.content⟩
      match ← Run.attempt (Run.rerank driver (some r.rag.rerankTimeoutMs) query inputs) with
      | .error _ => pure ⟨.degraded, docs, [], []⟩
      | .ok output =>
        pure ⟨.applied, Evidence.reordered docs output.results,
          Evidence.dropped docs output.results, [⟨UsageKey.rerank, output.model, output.usage⟩]⟩

/-- The documents pinned to a session that are not there yet. -/
def pinnedDocs (r : Retriever) (space : String) (session : Option String)
    (docs : List EvidenceDoc) : Except Fault (List EvidenceDoc) :=
  match session, r.pins with
  | some session, some store =>
    match store.pins session with
    | .error e => .error e
    | .ok pins =>
      match Evidence.wanted docs pins with
      | [] => .ok []
      | wanted =>
        match r.knowledge.list ⟨space, wanted⟩ with
        | .error e => .error e
        | .ok records => Evidence.pinned r.key records wanted
  | _, _ => .ok []

def retrieve (r : Retriever) (q : RetrievalRequest) : Run RetrievalOutcome := do
  let output ← r.embed q.query
  let vector ← Router.lift (vector output)
  let found ← r.search q vector
  let candidates := (ThresholdPolicy.ofRag r.rag).candidates found
  let docs ← Router.lift (r.hydrate q.space candidates)
  let reranking ← r.rerank (q.rerankQuery.getD q.query) docs
  let restored := Evidence.restored candidates.highScore reranking.docs reranking.dropped
  let missing := (Evidence.absent candidates.highScore reranking.docs).length - restored.length
  let docs := reranking.docs ++ restored
  let pinned ← Router.lift (r.pinnedDocs q.space q.session docs)
  pure {
    candidates := candidates
    docs := docs ++ pinned
    usage := ⟨"embedding", output.model, output.usage⟩ :: reranking.usage
    rerank := reranking.status
    missingHighScore := missing
    pinned := pinned.length }

end Retriever

end NoteAssistant
