import NoteAssistant.Proofs.Backend.Steps
import NoteAssistant.Proofs.Retrieval.Evidence
import NoteAssistant.Retrieval.Retriever

/-! # The stages of a retrieval

What each stage of a retrieval that succeeds leaves to the next one, told by what the stores
and the reranker reply. Proofs about a whole retrieval start from `Retriever.retrieve_stages`
and the law of each stage, and open no stage again.
-/

namespace NoteAssistant

/-- Matches that are in order already stay as they are. With this form of the ranking
    retrieval can be evaluated. -/
theorem ranking_eq (ms : List VectorMatch) :
    ranking ms =
      if ms.Pairwise (fun a b => decide (b.score.rank ≤ a.score.rank) = true) then ms
      else ms.mergeSort fun a b => decide (b.score.rank ≤ a.score.rank) := by
  split
  case isTrue ranked => exact List.mergeSort_of_pairwise ranked
  case isFalse => rfl

/-- A store lists a record with the id and the masks of a document. -/
def KnowledgeStore.Lists (k : KnowledgeStore) (d : EvidenceDoc) : Prop :=
  ∃ filter records, k.list filter = .ok records ∧ Evidence.From records d

namespace Retriever

variable {r : Retriever} {q : RetrievalRequest} {w v : World}

def found (r : Retriever) (q : RetrievalRequest) : Run (List VectorMatch) := do
  let output ← r.embed q.query
  let vector ← Router.lift (vector output)
  r.search q vector

/-- The records that the store lists for some ids; none if it fails. -/
def listed (r : Retriever) (space : String) (ids : List String) : List KnowledgeRecord :=
  (r.knowledge.list ⟨space, ids⟩).toOption.getD []

/-- The order of documents that the reranker replies; none if there is no reranker, nothing
    to put in order, or if it fails. -/
def ranking (r : Retriever) (query : String) (docs : List EvidenceDoc) (w : World) :
    Option (List String) :=
  if docs.length < 2 then none
  else
    match r.router.reranker with
    | .error _ => none
    | .ok driver =>
      let inputs := docs.map fun d => ⟨d.id, d.content⟩
      let (answer, _) := Run.rerank driver (some r.rag.rerankTimeoutMs) query inputs w
      answer.toOption.map fun output => output.results.map (·.id)

/-- The notes pinned to a session; none if there is no store of them or if it fails. -/
def sessionPins (r : Retriever) (session : Option String) : List String :=
  match session, r.pins with
  | some session, some store => (store.pins session).toOption.getD []
  | _, _ => []

/-- The documents after reranking, with the best candidates that it has left out. -/
def kept (r : Retriever) (found : List VectorMatch) (k : Reranking) : List EvidenceDoc :=
  let c := (ThresholdPolicy.ofRag r.rag).candidates found
  k.docs ++ Evidence.restored c.highScore k.docs k.dropped

theorem listed_of_ok {space : String} {ids : List String} {records : List KnowledgeRecord}
    (h : r.knowledge.list ⟨space, ids⟩ = .ok records) : r.listed space ids = records := by
  rw [listed, h]
  rfl

theorem hydrate_spec {space : String} {c : CandidateSet} {docs : List EvidenceDoc}
    (h : r.hydrate space c = .ok docs) :
    Evidence.ids docs = c.ids.filter (Evidence.has (r.listed space c.ids))
      ∧ ∀ d ∈ docs, Evidence.Scored d ∧ r.knowledge.Lists d := by
  unfold hydrate at h
  split at h
  case isTrue empty =>
    cases h
    simp [CandidateSet.ids, List.isEmpty_iff.mp empty, Evidence.ids]
  case isFalse =>
    split at h
    case h_1 => cases h
    case h_2 records listed =>
      obtain ⟨ids, each⟩ := Evidence.hydrate_spec h
      rw [listed_of_ok listed]
      refine ⟨ids, fun d mem => ?_⟩
      obtain ⟨scored, origin⟩ := each d mem
      exact ⟨scored, _, records, listed, origin⟩

theorem pinnedDocs_spec {space : String} {session : Option String}
    {docs added : List EvidenceDoc} (h : r.pinnedDocs space session docs = .ok added) :
    let wanted := Evidence.wanted docs (r.sessionPins session)
    Evidence.ids added = wanted.filter (Evidence.has (r.listed space wanted))
      ∧ ∀ d ∈ added, Evidence.Added d ∧ r.knowledge.Lists d := by
  have unpinned : Evidence.wanted docs [] = [] := rfl
  cases session with
  | none =>
      cases h
      simp [sessionPins, unpinned, Evidence.ids]
  | some session =>
      cases there : r.pins with
      | none =>
          simp only [pinnedDocs, there] at h
          cases h
          simp [sessionPins, there, unpinned, Evidence.ids]
      | some store =>
          simp only [pinnedDocs, there] at h
          split at h
          case h_1 => cases h
          case h_2 pins replied =>
            simp only [sessionPins, there, replied, Except.toOption, Option.getD_some]
            split at h
            case h_1 empty =>
              cases h
              simp [empty, Evidence.ids]
            case h_2 =>
              split at h
              case h_1 => cases h
              case h_2 records listed =>
                obtain ⟨ids, each⟩ := Evidence.pinned_spec h
                rw [listed_of_ok listed]
                refine ⟨ids, fun d mem => ?_⟩
                obtain ⟨flags, origin⟩ := each d mem
                exact ⟨flags, _, records, listed, origin⟩

theorem rerank_spec {query : String} {docs : List EvidenceDoc} {k : Reranking}
    (h : r.rerank query docs w = (.ok k, v)) :
    match r.ranking query docs w with
    | none => k.status ≠ .applied ∧ k.docs = docs ∧ k.dropped = []
    | some ranking => ∃ results : List RerankedDoc, results.map (·.id) = ranking
        ∧ k.status = .applied ∧ k.docs = Evidence.reordered docs results
        ∧ k.dropped = Evidence.dropped docs results := by
  unfold rerank at h
  unfold ranking
  split at h
  case isTrue few =>
    cases h
    rw [if_pos few]
    exact ⟨by simp, rfl, rfl⟩
  case isFalse many =>
    rw [if_neg many]
    cases there : r.router.reranker with
    | error e =>
        rw [there] at h
        cases h
        exact ⟨by simp, rfl, rfl⟩
    | ok driver =>
        simp only [there] at h
        rw [Run.bind_of_ok (Run.attempt_eq _ _)] at h
        dsimp only
        generalize Run.rerank driver _ query _ w = reply at h ⊢
        obtain ⟨answer, u⟩ := reply
        cases answer with
        | error e =>
            cases h
            exact ⟨by simp, rfl, rfl⟩
        | ok output =>
            cases h
            exact ⟨output.results, rfl, rfl, rfl, rfl⟩

/-- A retrieval that succeeds has gone through all stages, and its outcome tells what they
    have left. -/
theorem retrieve_stages {o : RetrievalOutcome} (h : r.retrieve q w = (.ok o, v)) :
    ∃ output found u docs k added,
      (r.embed q.query w).1 = .ok output ∧ r.found q w = (.ok found, u)
        ∧ r.hydrate q.space ((ThresholdPolicy.ofRag r.rag).candidates found) = .ok docs
        ∧ r.rerank (q.rerankQuery.getD q.query) docs u = (.ok k, v)
        ∧ r.pinnedDocs q.space q.session (r.kept found k) = .ok added
        ∧ o = {
            candidates := (ThresholdPolicy.ofRag r.rag).candidates found
            docs := r.kept found k ++ added
            usage := ⟨"embedding", output.model, output.usage⟩ :: k.usage
            rerank := k.status
            missingHighScore :=
              let best := ((ThresholdPolicy.ofRag r.rag).candidates found).highScore
              (Evidence.absent best k.docs).length
                - (Evidence.restored best k.docs k.dropped).length
            pinned := added.length } := by
  unfold retrieve at h
  obtain ⟨output, w₁, embedded, h⟩ := Run.bind_eq_ok.mp h
  obtain ⟨vector, w₂, lifted, h⟩ := Run.bind_eq_ok.mp h
  obtain ⟨hasVector, rfl⟩ := Run.lift_eq_ok.mp lifted
  obtain ⟨found, u, searched, h⟩ := Run.bind_eq_ok.mp h
  obtain ⟨docs, w₃, loaded, h⟩ := Run.bind_eq_ok.mp h
  obtain ⟨hydrated, rfl⟩ := Run.lift_eq_ok.mp loaded
  obtain ⟨k, w₄, reranked, h⟩ := Run.bind_eq_ok.mp h
  obtain ⟨added, w₅, completed, h⟩ := Run.bind_eq_ok.mp h
  obtain ⟨pinned, rfl⟩ := Run.lift_eq_ok.mp completed
  cases h
  refine ⟨output, found, u, docs, k, added, ?_, ?_, hydrated, reranked, pinned, rfl⟩
  · rw [embedded]
  · rw [Retriever.found, Run.bind_of_ok embedded, Run.bind_of_ok lifted, searched]

end Retriever

end NoteAssistant
