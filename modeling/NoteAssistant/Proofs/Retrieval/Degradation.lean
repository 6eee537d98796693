import NoteAssistant.Proofs.Backend.Alongside
import NoteAssistant.Proofs.Retrieval.Stages

/-! # Retrieval without a reranker

A retrieval gathers matches, loads the documents, asks the reranker, and the rest is a matter
of what the reranker made of them (`Retriever.retrieve_eq`). A reranker that fails leaves the
documents as they are, so only the status tells it from one that is not there
(`Retriever.retrieve_unranked`).
-/

namespace NoteAssistant

namespace Run

variable {α β : Type} {w v : World}

/-- Steps that answer the same, in whatever worlds they go on. -/
theorem bind_answer {step step' : Run α} {next next' : α → Run β}
    (first : (step w).1 = (step' v).1) (rest : ∀ a u u', (next a u).1 = (next' a u').1) :
    ((step >>= next) w).1 = ((step' >>= next') v).1 := by
  rw [bind_eq, bind_eq]
  rcases done : step w with ⟨answer, u⟩
  rcases done' : step' v with ⟨answer', u'⟩
  rw [done, done'] at first
  obtain rfl : answer = answer' := first
  cases answer with
  | ok a => exact rest a u u'
  | error e => rfl

theorem lift_answer (answer : Except Fault α) (w : World) : (Router.lift answer w).1 = answer := by
  cases answer <;> rfl

/-- What a call answers depends on the driver at its place only. -/
theorem call_answer {e e' : DriverEntry} (delay : ScriptedDriver → Nat) (limit : Option Nat)
    (ask : ScriptedDriver → Except Fault α × ScriptedDriver) (name : e.name = e'.name)
    (there : w.drivers[e.place]? = v.drivers[e'.place]?) :
    (call e delay limit ask w).1 = (call e' delay limit ask v).1 := by
  unfold call
  rw [there, name]
  cases v.drivers[e'.place]? with
  | none => rfl
  | some d =>
      dsimp only
      split <;> rfl

end Run

namespace DriverEntry

/-- A driver that does not rank documents any more. -/
def unranked (e : DriverEntry) : DriverEntry :=
  { e with offered := e.offered.filter (· ≠ .rerank) }

theorem supports_unranked (e : DriverEntry) {c : Capability} (other : c ≠ .rerank) :
    e.unranked.supports c = e.supports c := by
  cases c with
  | rerank => exact absurd rfl other
  | _ => simp [supports, unranked]

end DriverEntry

namespace Router

/-- The driver that embeds queries. -/
def embedder (r : Router) (w : World) : Except Fault (String × Option ScriptedDriver) :=
  (r.embedding UsageKey.embeddingQuery).map fun e => (e.name, w.drivers[e.place]?)

/-- No driver that is registered ranks documents. -/
def Rankless (r : Router) : Prop := ∀ e ∈ r.registry.entries, e.supports .rerank = false

theorem mem_of_entryFor {r : Router} {key : String} {e : DriverEntry}
    (h : r.entryFor key = .ok e) : e ∈ r.registry.entries := by
  unfold entryFor at h
  split at h
  case h_1 found there =>
    cases h
    rcases Option.or_eq_some_iff.mp there with bound | ⟨_, first⟩
    · obtain ⟨name, _, named⟩ := Option.bind_eq_some_iff.mp bound
      exact List.mem_of_find?_eq_some named
    · exact List.mem_of_find?_eq_some first
  case h_2 => cases h

theorem Rankless.reranker {r : Router} (h : r.Rankless) : ∃ e, r.reranker = .error e := by
  unfold Router.reranker resolve
  cases served : r.entryFor UsageKey.rerank with
  | error e => exact ⟨e, rfl⟩
  | ok e =>
      have unable := h e (mem_of_entryFor served)
      exact ⟨_, if_neg (by simp [unable])⟩

/-- The same drivers, none of which ranks documents any more. -/
def unranked (r : Router) : Router :=
  { r with registry := ⟨r.registry.entries.map DriverEntry.unranked⟩ }

theorem unranked_rankless (r : Router) : r.unranked.Rankless := by
  intro e mem
  obtain ⟨d, _, rfl⟩ := List.mem_map.mp mem
  simp [DriverEntry.supports, DriverEntry.unranked]

theorem get?_unranked (r : Router) (name : String) :
    r.unranked.registry.get? name = (r.registry.get? name).map DriverEntry.unranked := by
  have named (key : String) :
      (fun e : DriverEntry => decide (e.name = key)) ∘ DriverEntry.unranked =
        fun e => decide (e.name = key) := rfl
  simp only [Registry.get?, unranked, List.find?_map, named]

theorem first?_unranked (r : Router) {c : Capability} (other : c ≠ .rerank) :
    r.unranked.registry.first? c = (r.registry.first? c).map DriverEntry.unranked := by
  have able : (DriverEntry.supports · c) ∘ DriverEntry.unranked = (DriverEntry.supports · c) :=
    funext fun e => e.supports_unranked other
  simp only [Registry.first?, unranked, List.find?_map, able]

theorem entryFor_unranked (r : Router) {key : String}
    (other : Capability.ofUsageKey key ≠ .rerank) :
    r.unranked.entryFor key = (r.entryFor key).map DriverEntry.unranked := by
  have bound : r.unranked.bound? key = (r.bound? key).map DriverEntry.unranked := by
    have usage : r.unranked.usage = r.usage := rfl
    unfold bound?
    rw [usage]
    cases r.usage.lookup (nameKey key) with
    | none => rfl
    | some name => exact r.get?_unranked name
  simp only [entryFor, bound, r.first?_unranked other]
  cases r.bound? key with
  | some e => rfl
  | none => cases r.registry.first? (.ofUsageKey key) <;> rfl

/-- Ranking has no part in embedding. -/
theorem embedder_unranked (r : Router) (w : World) : r.unranked.embedder w = r.embedder w := by
  have embeds : Capability.ofUsageKey UsageKey.embeddingQuery ≠ .rerank := by decide +kernel
  unfold embedder embedding resolve
  rw [r.entryFor_unranked embeds]
  cases r.entryFor UsageKey.embeddingQuery with
  | error e => rfl
  | ok e =>
      have able : e.unranked.supports .embedding = e.supports .embedding :=
        e.supports_unranked (by decide)
      change Except.map _ (if e.unranked.supports .embedding then .ok e.unranked else .error _) =
        Except.map _ (if e.supports .embedding then .ok e else .error _)
      rw [able]
      split <;> rfl

theorem embedQuery_answer {r s : Router} {w v : World} (same : s.embedder v = r.embedder w)
    (limit : Option Nat) (texts : List String) :
    (s.embedQuery limit texts v).1 = (r.embedQuery limit texts w).1 := by
  unfold embedder at same
  unfold embedQuery
  cases left : s.embedding UsageKey.embeddingQuery with
  | error e =>
      cases right : r.embedding UsageKey.embeddingQuery with
      | error e' =>
          rw [left, right] at same
          cases same
          rfl
      | ok d' => simp [left, right, Except.map] at same
  | ok d =>
      cases right : r.embedding UsageKey.embeddingQuery with
      | error e' => simp [left, right, Except.map] at same
      | ok d' =>
          rw [left, right] at same
          obtain ⟨name, there⟩ := Prod.mk.inj (Except.ok.inj same)
          exact Run.call_answer _ limit _ name there

end Router

namespace Retriever

/-- A retriever with other drivers. -/
def routed (r : Retriever) (s : Router) : Retriever := { r with router := s }

/-- What is found for a query, and what it took to embed it. -/
def gather (r : Retriever) (q : RetrievalRequest) : Run (EmbeddingOutput × List VectorMatch) := do
  let output ← r.embed q.query
  let vector ← Router.lift (vector output)
  let found ← r.search q vector
  pure (output, found)

def candidates (r : Retriever) (found : List VectorMatch) : CandidateSet :=
  (ThresholdPolicy.ofRag r.rag).candidates found

/-- The outcome of a retrieval whose documents have been ranked. -/
def finish (r : Retriever) (q : RetrievalRequest) (output : EmbeddingOutput)
    (found : List VectorMatch) (k : Reranking) : Except Fault RetrievalOutcome :=
  let best := (r.candidates found).highScore
  let restored := Evidence.restored best k.docs k.dropped
  (r.pinnedDocs q.space q.session (r.kept found k)).map fun pinned => {
    candidates := r.candidates found
    docs := r.kept found k ++ pinned
    usage := ⟨"embedding", output.model, output.usage⟩ :: k.usage
    rerank := k.status
    missingHighScore := (Evidence.absent best k.docs).length - restored.length
    pinned := pinned.length }

/-- A retrieval from what has been gathered on. -/
def conclude (r : Retriever) (q : RetrievalRequest) (output : EmbeddingOutput)
    (found : List VectorMatch) : Run RetrievalOutcome := do
  let docs ← Router.lift (r.hydrate q.space (r.candidates found))
  let k ← r.rerank (q.rerankQuery.getD q.query) docs
  Router.lift (r.finish q output found k)

theorem retrieve_eq (r : Retriever) (q : RetrievalRequest) :
    r.retrieve q = r.gather q >>= fun (output, found) => r.conclude q output found := by
  simp only [retrieve, gather, conclude, finish, kept, candidates, Run.lift_map, bind_assoc,
    pure_bind, ← bind_pure_comp]

/-- What the reranker replies to a retrieval, if it is asked. -/
def rerankReply (r : Retriever) (q : RetrievalRequest) (w : World) :
    Option (Except Fault RerankOutput) :=
  match r.gather q w with
  | (.error _, _) => none
  | (.ok (_, found), u) =>
    match r.hydrate q.space (r.candidates found), r.router.reranker with
    | .ok docs, .ok driver =>
      if docs.length < 2 then none
      else
        let inputs := docs.map fun d => ⟨d.id, d.content⟩
        let query := q.rerankQuery.getD q.query
        some (Run.rerank driver (some r.rag.rerankTimeoutMs) query inputs u).1
    | _, _ => none

section Steps

variable {r : Retriever} {q : RetrievalRequest} {v w : World}

theorem embed_inStep (query : String) : Run.InStep v w (r.embed query) (r.embed query) := by
  unfold embed
  refine .bind (.attempt ?_) fun answer => ?_
  · refine .bind (.lift _) fun driver => ?_
    exact .call driver _ (fun _ => rfl) (ScriptedDriver.embedQuery_heedless [query])
  · cases answer with
    | ok output => exact .pure output
    | error e => exact .throw _

theorem rerank_inStep (query : String) (docs : List EvidenceDoc) :
    Run.InStep v w (r.rerank query docs) (r.rerank query docs) := by
  unfold rerank
  split
  case isTrue => exact .pure _
  case isFalse =>
    cases r.router.reranker with
    | error e => exact .pure _
    | ok driver =>
        have ask := ScriptedDriver.rerank_heedless query (docs.map fun d => ⟨d.id, d.content⟩)
        refine .bind (.attempt (.call driver _ (fun _ => rfl) ask)) fun answer => ?_
        cases answer with
        | ok output => exact .pure _
        | error e => exact .pure _

theorem retrieve_inStep : Run.InStep v w (r.retrieve q) (r.retrieve q) := by
  rw [retrieve_eq]
  refine .bind ?_ fun (output, found) => ?_
  · refine .bind (embed_inStep q.query) fun output => .bind (.lift _) fun vector => ?_
    exact .bind (.bind (.noteSearch _) fun _ => .lift _) fun found => .pure _
  · exact .bind (.lift _) fun docs => .bind (rerank_inStep _ docs) fun k => .lift _

theorem gather_answer {s : Router} (same : s.embedder v = r.router.embedder w) :
    ((r.routed s).gather q v).1 = (r.gather q w).1 := by
  have asked := Router.embedQuery_answer same (some r.rag.embedTimeoutMs) [q.query]
  refine Run.bind_answer (Run.bind_answer (congrArg Except.ok asked) ?_) ?_
  · intro answer u u'
    cases answer <;> rfl
  · intro output u u'
    refine Run.bind_answer ?_ fun vector u u' => ?_
    · rw [Run.lift_answer, Run.lift_answer]
    · refine Run.bind_answer ?_ fun found u u' => rfl
      refine Run.bind_answer rfl fun _ u u' => ?_
      rw [Run.lift_answer, Run.lift_answer]
      rfl

theorem rerank_of_error {query : String} {docs : List EvidenceDoc} {driver : DriverEntry}
    {e : Fault} (many : ¬docs.length < 2) (there : r.router.reranker = .ok driver)
    (failed : (Run.rerank driver (some r.rag.rerankTimeoutMs) query
      (docs.map fun d => ⟨d.id, d.content⟩) w).1 = .error e) :
    (r.rerank query docs w).1 = .ok ⟨.degraded, docs, [], []⟩ := by
  unfold rerank
  rw [if_neg many, there]
  dsimp only
  rw [Run.bind_of_ok (Run.attempt_eq _ _), failed]
  rfl

theorem rerank_of_rankless {query : String} {docs : List EvidenceDoc}
    (none : r.router.Rankless) : r.rerank query docs = pure ⟨.skipped, docs, [], []⟩ := by
  obtain ⟨e, missing⟩ := none.reranker
  unfold rerank
  split
  case isTrue => rfl
  case isFalse => rw [missing]

/-- What a retrieval answers is settled by what it gathers and by the reranking. -/
theorem retrieve_answer {output : EmbeddingOutput} {found : List VectorMatch} {u : World}
    {docs : List EvidenceDoc} {k : Reranking} (gathered : r.gather q w = (.ok (output, found), u))
    (hydrated : r.hydrate q.space (r.candidates found) = .ok docs)
    (reranked : (r.rerank (q.rerankQuery.getD q.query) docs u).1 = .ok k) :
    (r.retrieve q w).1 = r.finish q output found k := by
  rw [retrieve_eq, Run.bind_of_ok gathered]
  simp only [conclude, hydrated]
  rw [Run.bind_of_ok (Run.lift_eq_ok.mpr ⟨rfl, rfl⟩), Run.bind_eq]
  rcases done : r.rerank (q.rerankQuery.getD q.query) docs u with ⟨answer, u'⟩
  rw [done] at reranked
  obtain rfl : answer = .ok k := reranked
  exact Run.lift_answer _ u'

/-- A reranker that fails has been asked about two documents or more. -/
theorem failed_of_rerankReply {e : Fault} (failed : r.rerankReply q w = some (.error e)) :
    ∃ output found u docs, r.gather q w = (.ok (output, found), u)
      ∧ r.hydrate q.space (r.candidates found) = .ok docs
      ∧ (r.rerank (q.rerankQuery.getD q.query) docs u).1 = .ok ⟨.degraded, docs, [], []⟩ := by
  unfold rerankReply at failed
  split at failed
  case h_1 => cases failed
  case h_2 output found u gathered =>
    split at failed
    case h_2 => cases failed
    case h_1 docs driver hydrated there =>
      split at failed
      case isTrue => cases failed
      case isFalse many =>
        exact ⟨output, found, u, docs, gathered, hydrated,
          rerank_of_error many there (Option.some.inj failed)⟩

theorem finish_skipped (r : Retriever) (q : RetrievalRequest) (output : EmbeddingOutput)
    (found : List VectorMatch) (k : Reranking) (status : RerankStatus) :
    r.finish q output found { k with status := status } =
      (r.finish q output found k).map fun o => { o with rerank := status } := by
  have same : r.kept found { k with status := status } = r.kept found k := rfl
  simp only [finish, same]
  cases r.pinnedDocs q.space q.session (r.kept found k) <;> rfl

theorem rerank_of_finish {output : EmbeddingOutput} {found : List VectorMatch} {k : Reranking}
    {o : RetrievalOutcome} (h : r.finish q output found k = .ok o) : o.rerank = k.status := by
  unfold finish at h
  cases pinned : r.pinnedDocs q.space q.session (r.kept found k) with
  | error e =>
      rw [pinned] at h
      cases h
  | ok added =>
      rw [pinned] at h
      cases h
      rfl

/-- A reranker that fails changes nothing but the status of the outcome, compared with a
    retrieval by drivers that embed the query alike and of which none ranks documents. -/
theorem retrieve_rankless {s : Router} {e : Fault} (failed : r.rerankReply q w = some (.error e))
    (same : s.embedder v = r.router.embedder w) (none : s.Rankless) :
    ((r.routed s).retrieve q v).1 =
        (r.retrieve q w).1.map (fun o => { o with rerank := .skipped })
      ∧ ∀ o, (r.retrieve q w).1 = .ok o → o.rerank = .degraded := by
  obtain ⟨output, found, u, docs, gathered, hydrated, reranked⟩ := failed_of_rerankReply failed
  have degraded := retrieve_answer gathered hydrated reranked
  have again := gather_answer (q := q) same
  rcases gathered' : (r.routed s).gather q v with ⟨answer, u'⟩
  rw [gathered, gathered'] at again
  obtain rfl : answer = .ok (output, found) := again
  have skipped : ((r.routed s).rerank (q.rerankQuery.getD q.query) docs u').1 =
      .ok ⟨.skipped, docs, [], []⟩ := by
    rw [rerank_of_rankless (r := r.routed s) none]
    rfl
  have plain := retrieve_answer gathered' hydrated skipped
  constructor
  · rw [plain, degraded]
    exact r.finish_skipped q output found ⟨.degraded, docs, [], []⟩ .skipped
  · intro o done
    rw [degraded] at done
    exact rerank_of_finish done

/-- A retrieval whose reranker fails, compared with one by the same drivers without any. -/
theorem retrieve_unranked {e : Fault} (failed : r.rerankReply q w = some (.error e)) :
    ((r.routed r.router.unranked).retrieve q w).1 =
      (r.retrieve q w).1.map (fun o => { o with rerank := .skipped }) :=
  (retrieve_rankless failed (r.router.embedder_unranked w) r.router.unranked_rankless).1

end Steps

end Retriever

end NoteAssistant
