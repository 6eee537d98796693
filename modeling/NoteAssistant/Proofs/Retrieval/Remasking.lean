import NoteAssistant.Proofs.Backend.Steps
import NoteAssistant.Retrieval.Retriever

/-! # Retrieval does not look at masks

Whatever function rewrites the masks of all records, it makes no difference whether the
masks are rewritten in the store or in the documents that come out of a step. So no step
depends on them.
-/

namespace NoteAssistant

variable (g : MaskTable → MaskTable)

/-- A record with its masks rewritten. -/
def KnowledgeRecord.remask (r : KnowledgeRecord) : KnowledgeRecord := { r with masks := g r.masks }

def EvidenceDoc.remask (d : EvidenceDoc) : EvidenceDoc := { d with masks := g d.masks }

def KnowledgeStore.remask (k : KnowledgeStore) : KnowledgeStore where
  list filter := (k.list filter).map (List.map (·.remask g))

def Retriever.remask (r : Retriever) : Retriever := { r with knowledge := r.knowledge.remask g }

def Reranking.remask (k : Reranking) : Reranking :=
  { k with docs := k.docs.map (·.remask g), dropped := k.dropped.map (·.remask g) }

def RetrievalOutcome.remask (o : RetrievalOutcome) : RetrievalOutcome :=
  { o with docs := o.docs.map (·.remask g) }

theorem KnowledgeRecord.evidence_remask (r : KnowledgeRecord) (key : Option ContentKey) :
    (r.remask g).evidence key = (r.evidence key).map (·.remask g) := by
  have text : (r.remask g).text key = r.text key := rfl
  rw [evidence, evidence, text]
  cases r.text key <;> rfl

theorem KnowledgeRecord.map_evidence_remask (r : KnowledgeRecord) (key : Option ContentKey)
    {finish : EvidenceDoc → EvidenceDoc}
    (comm : ∀ d, finish (d.remask g) = (finish d).remask g) :
    ((r.remask g).evidence key).map finish = ((r.evidence key).map finish).map (·.remask g) := by
  rw [evidence_remask]
  cases r.evidence key with
  | error e => rfl
  | ok d => exact congrArg Except.ok (comm d)

/-- A change that a traversal does not look at can be made before it or after it. -/
theorem mapM_map_of_comm {α β ε : Type} {make : α → Except ε β} {f : α → α} {h : β → β}
    (comm : ∀ a, make (f a) = (make a).map h) (items : List α) :
    (items.map f).mapM make = (items.mapM make).map (List.map h) := by
  induction items with
  | nil => rfl
  | cons a rest ih =>
      rw [List.map_cons, List.mapM_cons, List.mapM_cons, comm, ih]
      cases make a with
      | error e => rfl
      | ok b => cases rest.mapM make <;> rfl

namespace Evidence

theorem ids_remask (docs : List EvidenceDoc) : ids (docs.map (·.remask g)) = ids docs := by
  rw [ids, List.map_map]
  rfl

theorem record?_remask (records : List KnowledgeRecord) (id : String) :
    record? (records.map (·.remask g)) id = (record? records id).map (·.remask g) := by
  rw [record?, ← List.map_reverse, List.find?_map]
  rfl

theorem find?_remask (docs : List EvidenceDoc) (id : String) :
    find? (docs.map (·.remask g)) id = (find? docs id).map (·.remask g) := by
  rw [find?, List.find?_map]
  rfl

theorem hydrate_remask (key : Option ContentKey) (records : List KnowledgeRecord)
    (candidates : List VectorMatch) :
    hydrate key (records.map (·.remask g)) candidates =
      (hydrate key records candidates).map (List.map (·.remask g)) := by
  let f (p : VectorMatch × KnowledgeRecord) : VectorMatch × KnowledgeRecord := (p.1, p.2.remask g)
  have listed : (candidates.filterMap fun m =>
        (record? (records.map (·.remask g)) m.knowledge).map (m, ·)) =
      (candidates.filterMap fun m => (record? records m.knowledge).map (m, ·)).map f := by
    rw [List.map_filterMap]
    simp only [record?_remask, Option.map_map]
    rfl
  rw [hydrate, listed]
  exact mapM_map_of_comm (fun p => p.2.map_evidence_remask g key fun _ => rfl) _

theorem reordered_remask (docs : List EvidenceDoc) (results : List RerankedDoc) :
    reordered (docs.map (·.remask g)) results = (reordered docs results).map (·.remask g) := by
  rw [reordered, reordered, List.map_filterMap]
  simp only [find?_remask, Option.map_map]
  rfl

theorem dropped_remask (docs : List EvidenceDoc) (results : List RerankedDoc) :
    dropped (docs.map (·.remask g)) results = (dropped docs results).map (·.remask g) := by
  rw [dropped, dropped, List.filter_map]
  rfl

theorem absent_remask (highScore : List VectorMatch) (docs : List EvidenceDoc) :
    absent highScore (docs.map (·.remask g)) = absent highScore docs := by
  rw [absent, absent, ids_remask]

theorem restored_remask (highScore : List VectorMatch) (docs left : List EvidenceDoc) :
    restored highScore (docs.map (·.remask g)) (left.map (·.remask g)) =
      (restored highScore docs left).map (·.remask g) := by
  rw [restored, restored, absent_remask, List.map_filterMap]
  simp only [find?_remask, Option.map_map]
  rfl

theorem wanted_remask (docs : List EvidenceDoc) (pins : List String) :
    wanted (docs.map (·.remask g)) pins = wanted docs pins := by
  rw [wanted, wanted, ids_remask]

theorem pinned_remask (key : Option ContentKey) (records : List KnowledgeRecord)
    (wanted : List String) :
    pinned key (records.map (·.remask g)) wanted =
      (pinned key records wanted).map (List.map (·.remask g)) := by
  have listed : wanted.filterMap (record? (records.map (·.remask g))) =
      (wanted.filterMap (record? records)).map (·.remask g) := by
    rw [List.map_filterMap]
    exact congrArg (List.filterMap · wanted) (funext (record?_remask g records))
  rw [pinned, listed]
  exact mapM_map_of_comm (fun r => r.map_evidence_remask g key fun _ => rfl) _

end Evidence

namespace Retriever

variable (r : Retriever)

theorem list_remask (filter : KnowledgeFilter) :
    (r.remask g).knowledge.list filter = (r.knowledge.list filter).map (List.map (·.remask g)) :=
  rfl

theorem hydrate_remask (space : String) (c : CandidateSet) :
    (r.remask g).hydrate space c = (r.hydrate space c).map (List.map (·.remask g)) := by
  unfold hydrate
  rw [list_remask]
  split
  case isTrue => rfl
  case isFalse =>
    cases r.knowledge.list ⟨space, c.ids⟩ with
    | error e => rfl
    | ok records => exact Evidence.hydrate_remask g r.key records c.matched

theorem pinnedDocs_remask (space : String) (session : Option String) (docs : List EvidenceDoc) :
    (r.remask g).pinnedDocs space session (docs.map (·.remask g)) =
      (r.pinnedDocs space session docs).map (List.map (·.remask g)) := by
  have pins : (r.remask g).pins = r.pins := rfl
  unfold pinnedDocs
  rw [pins]
  cases session with
  | none => rfl
  | some session =>
      cases r.pins with
      | none => rfl
      | some store =>
          dsimp only
          cases store.pins session with
          | error e => rfl
          | ok pins =>
              simp only [Evidence.wanted_remask]
              cases Evidence.wanted docs pins with
              | nil => rfl
              | cons id ids =>
                  simp only [list_remask]
                  cases r.knowledge.list ⟨space, id :: ids⟩ with
                  | error e => rfl
                  | ok records => exact Evidence.pinned_remask g r.key records (id :: ids)

theorem rerank_remask (query : String) (docs : List EvidenceDoc) :
    (r.remask g).rerank query (docs.map (·.remask g)) =
      Reranking.remask g <$> r.rerank query docs := by
  have router : (r.remask g).router = r.router := rfl
  have inputs : (docs.map (·.remask g)).map (fun d => (⟨d.id, d.content⟩ : RerankDoc)) =
      docs.map fun d => ⟨d.id, d.content⟩ := by
    rw [List.map_map]
    rfl
  unfold rerank
  rw [List.length_map, router, inputs]
  split
  case isTrue => rfl
  case isFalse =>
    cases r.router.reranker with
    | error e => rfl
    | ok driver =>
        simp only [map_bind]
        refine congrArg (_ >>= ·) (funext fun answer => ?_)
        cases answer with
        | error e => rfl
        | ok output =>
            simp only [Evidence.reordered_remask, Evidence.dropped_remask, map_pure]
            rfl

/-- Retrieval does not depend on masks. -/
theorem retrieve_remask (q : RetrievalRequest) :
    (r.remask g).retrieve q = RetrievalOutcome.remask g <$> r.retrieve q := by
  have rag : (r.remask g).rag = r.rag := rfl
  have docs (k : Reranking) : (k.remask g).docs = k.docs.map (·.remask g) := rfl
  have dropped (k : Reranking) : (k.remask g).dropped = k.dropped.map (·.remask g) := rfl
  unfold retrieve
  simp only [hydrate_remask, Run.lift_map, bind_map_left, rerank_remask, docs, dropped, rag,
    Evidence.restored_remask, Evidence.absent_remask, ← List.map_append, pinnedDocs_remask,
    List.length_map, map_bind, map_pure]
  rfl

end Retriever

end NoteAssistant
