import NoteAssistant.Proofs.Retrieval.Stages

/-! # Fusion of evidence

Three collaborators decide about the evidence: the store that lists records, the
reranker, and the store of pinned notes. `Fusion.evidence` says which ids come out of
any replies of theirs, and `Retriever.retrieve_fused` that retrieval returns just these.
-/

namespace NoteAssistant

/-- What the collaborators of one retrieval reply. -/
structure Fusion where
  /-- The ids of the candidates, best first. -/
  candidates : List String
  best : List String
  /-- The records that are listed for some ids. -/
  listed : List String → List KnowledgeRecord
  /-- The ids as the reranker puts them in order, if it does. -/
  ranking : Option (List String)
  pins : List String

namespace Fusion

variable (f : Fusion)

/-- The candidates that have a record. -/
def hydrated : List String := f.candidates.filter (Evidence.has (f.listed f.candidates))

/-- Those that the reranker keeps, in its order; all of them if there is no such order. -/
def ordered : List String :=
  match f.ranking with
  | none => f.hydrated
  | some ranking => (distinctBy id ranking).filter f.hydrated.contains

/-- The best candidates that the reranker has left out. -/
def rescued : List String :=
  match f.ranking with
  | none => []
  | some _ => f.best.filter fun id => f.hydrated.contains id && !f.ordered.contains id

/-- The pinned notes that are still missing. -/
def wanted : List String :=
  distinctBy id (f.pins.filter fun id => !(f.ordered ++ f.rescued).contains id)

/-- Those of them that have a record. -/
def added : List String := f.wanted.filter (Evidence.has (f.listed f.wanted))

def evidence : List String := f.ordered ++ f.rescued ++ f.added

/-- What holds of the evidence that is made of the replies. -/
structure Describes (o : RetrievalOutcome) : Prop where
  ids : Evidence.ids o.docs = f.ordered ++ f.rescued ++ f.added
  status : o.rerank = .applied ↔ f.ranking.isSome = true
  distinct : (Evidence.ids o.docs).Nodup
  /-- No document is made up. -/
  known : ∀ id ∈ Evidence.ids o.docs,
    id ∈ f.candidates ∧ Evidence.has (f.listed f.candidates) id = true
      ∨ id ∈ f.pins ∧ Evidence.has (f.listed f.wanted) id = true
  best : ∀ id ∈ f.best, id ∈ f.hydrated → id ∈ Evidence.ids o.docs
  pinned : ∀ id ∈ f.pins, Evidence.has (f.listed f.wanted) id = true →
    id ∈ Evidence.ids o.docs
  /-- Documents that are there only because they are pinned come last and have no score. -/
  last : ∃ shown added, o.docs = shown ++ added ∧ Evidence.ids added = f.added
    ∧ o.pinned = added.length ∧ (∀ d ∈ shown, Evidence.Scored d)
    ∧ ∀ d ∈ added, Evidence.Added d

section Laws

variable {f}

theorem ordered_subset : f.ordered ⊆ f.hydrated := by
  intro id mem
  unfold ordered at mem
  split at mem
  case h_1 => exact mem
  case h_2 => simpa using (List.mem_filter.mp mem).2

theorem mem_rescued {id : String} (h : id ∈ f.rescued) :
    id ∈ f.best ∧ id ∈ f.hydrated ∧ id ∉ f.ordered := by
  unfold rescued at h
  split at h
  case h_1 => cases h
  case h_2 =>
    obtain ⟨best, kept⟩ := List.mem_filter.mp h
    exact ⟨best, by simpa using kept⟩

theorem mem_wanted {id : String} :
    id ∈ f.wanted ↔ id ∈ f.pins ∧ id ∉ f.ordered ∧ id ∉ f.rescued := by
  simp [wanted, mem_distinctBy_id]

theorem nodup_evidence (candidates : f.candidates.Nodup) (best : f.best.Nodup) :
    f.evidence.Nodup := by
  have hydrated : f.hydrated.Nodup := candidates.filter _
  have ordered : f.ordered.Nodup := by
    unfold Fusion.ordered
    split
    case h_1 => exact hydrated
    case h_2 => exact (nodup_distinctBy_id _).filter _
  have rescued : f.rescued.Nodup := by
    unfold Fusion.rescued
    split
    case h_1 => exact List.nodup_nil
    case h_2 => exact best.filter _
  have added : f.added.Nodup := (nodup_distinctBy_id _).filter _
  refine List.nodup_append.mpr ⟨List.nodup_append.mpr ⟨ordered, rescued, ?_⟩, added, ?_⟩
  · rintro id early _ late rfl
    exact (mem_rescued late).2.2 early
  · rintro id early _ late rfl
    obtain ⟨_, unordered, unrescued⟩ := mem_wanted.mp (List.mem_of_mem_filter late)
    exact (List.mem_append.mp early).elim unordered unrescued

theorem listed_of_mem_evidence {id : String} (h : id ∈ f.evidence) :
    id ∈ f.candidates ∧ Evidence.has (f.listed f.candidates) id = true
      ∨ id ∈ f.pins ∧ Evidence.has (f.listed f.wanted) id = true := by
  have known {id : String} (mem : id ∈ f.hydrated) := List.mem_filter.mp mem
  simp only [evidence, List.mem_append] at h
  rcases h with (ordered | rescued) | added
  · exact .inl (known (ordered_subset ordered))
  · exact .inl (known (mem_rescued rescued).2.1)
  · obtain ⟨wanted, there⟩ := List.mem_filter.mp added
    exact .inr ⟨(mem_wanted.mp wanted).1, there⟩

theorem best_mem_shown {id : String} (best : id ∈ f.best) (there : id ∈ f.hydrated) :
    id ∈ f.ordered ++ f.rescued := by
  by_cases early : id ∈ f.ordered
  · exact List.mem_append_left _ early
  · have late : id ∈ f.rescued := by
      unfold rescued
      split
      case h_1 none => simp [ordered, none, there] at early
      case h_2 => simp [best, there, early]
    exact List.mem_append_right _ late

theorem best_mem_evidence {id : String} (best : id ∈ f.best) (there : id ∈ f.hydrated) :
    id ∈ f.evidence :=
  List.mem_append_left _ (best_mem_shown best there)

theorem pin_mem_evidence {id : String} (pin : id ∈ f.pins)
    (there : Evidence.has (f.listed f.wanted) id = true) : id ∈ f.evidence := by
  by_cases early : id ∈ f.ordered ++ f.rescued
  · exact List.mem_append_left _ early
  · rw [List.mem_append, not_or] at early
    have late : id ∈ f.added := List.mem_filter.mpr ⟨mem_wanted.mpr ⟨pin, early⟩, there⟩
    exact List.mem_append_right _ late

end Laws

end Fusion

namespace Retriever

variable {r : Retriever} {q : RetrievalRequest} {w v : World}

/-- What the collaborators reply when the search has found some matches. -/
def replies (r : Retriever) (q : RetrievalRequest) (found : List VectorMatch) (w : World) :
    Fusion :=
  let c := (ThresholdPolicy.ofRag r.rag).candidates found
  let docs := (r.hydrate q.space c).toOption.getD []
  { candidates := c.ids
    best := c.highScore.map (·.knowledge)
    listed := r.listed q.space
    ranking := r.ranking (q.rerankQuery.getD q.query) docs w
    pins := r.sessionPins q.session }

/-- The documents after reranking and restoring, and whether they are in a new order. -/
theorem rerank_fused {found : List VectorMatch} {docs : List EvidenceDoc} {k : Reranking}
    (hydrated : r.hydrate q.space ((ThresholdPolicy.ofRag r.rag).candidates found) = .ok docs)
    (h : r.rerank (q.rerankQuery.getD q.query) docs w = (.ok k, v)) :
    let f := r.replies q found w
    let best := ((ThresholdPolicy.ofRag r.rag).candidates found).highScore
    let restored := Evidence.restored best k.docs k.dropped
    Evidence.ids k.docs = f.ordered ∧ Evidence.ids restored = f.rescued
      ∧ (k.status = .applied ↔ f.ranking.isSome = true)
      ∧ ∀ d ∈ k.docs ++ restored, Evidence.Scored d := by
  intro f best restored
  obtain ⟨ids, each⟩ := hydrate_spec hydrated
  have scored : ∀ d ∈ docs, Evidence.Scored d := fun d mem => (each d mem).1
  have known : f.hydrated = Evidence.ids docs := ids.symm
  have order : f.ranking = r.ranking (q.rerankQuery.getD q.query) docs w := by
    simp only [f, replies, hydrated]
    rfl
  have spec := rerank_spec h
  rw [← order] at spec
  cases ranked : f.ranking with
  | none =>
      simp only [ranked] at spec
      obtain ⟨status, same, nothing⟩ := spec
      have none : restored = [] := by simp [restored, nothing, Evidence.restored, Evidence.find?]
      rw [none, same, List.append_nil]
      refine ⟨?_, ?_, by simpa using status, scored⟩
      · rw [Fusion.ordered, ranked, known]
      · rw [Fusion.rescued, ranked]
        rfl
  | some ranking =>
      simp only [ranked] at spec
      obtain ⟨results, rfl, status, reordered, dropped⟩ := spec
      have ordered : Evidence.ids k.docs = f.ordered := by
        rw [reordered, Evidence.ids_reordered, Fusion.ordered, ranked, known]
      have rescued : Evidence.ids restored = f.rescued := by
        simp only [restored, reordered, dropped, Evidence.ids_restored_reordered]
        rw [Fusion.rescued, ranked, ← ordered, known, reordered]
        rfl
      refine ⟨ordered, rescued, by simpa using status, fun d mem => ?_⟩
      rcases List.mem_append.mp mem with early | late
      · exact Evidence.reordered_scored scored d (reordered ▸ early)
      · refine Evidence.restored_scored (fun d left => scored d ?_) d late
        rw [dropped] at left
        exact List.mem_of_mem_filter left

/-- Whatever the collaborators reply, retrieval that succeeds returns the documents in the
    reranker's order, then the best candidates that it left out, then the pinned notes that
    are still missing. -/
theorem retrieve_fused {o : RetrievalOutcome} (h : r.retrieve q w = (.ok o, v)) :
    ∃ found u, r.found q w = (.ok found, u) ∧ (r.replies q found u).Describes o := by
  obtain ⟨_, found, u, docs, k, added, _, search, hydrated, reranked, pinned, rfl⟩ :=
    retrieve_stages h
  refine ⟨found, u, search, ?_⟩
  let f := r.replies q found u
  let c := (ThresholdPolicy.ofRag r.rag).candidates found
  obtain ⟨ordered, rescued, status, scored⟩ := rerank_fused hydrated reranked
  obtain ⟨addedIds, addedEach⟩ := pinnedDocs_spec pinned
  have shown : Evidence.ids (r.kept found k) = f.ordered ++ f.rescued := by
    rw [kept, Evidence.ids, List.map_append]
    exact congrArg₂ (· ++ ·) ordered rescued
  have late : Evidence.ids added = f.added := by
    rw [Evidence.wanted, shown] at addedIds
    exact addedIds
  have whole : Evidence.ids (r.kept found k ++ added) = f.evidence := by
    rw [Fusion.evidence, ← shown, ← late]
    exact List.map_append
  have distinct : c.ids.Nodup := nodup_map_distinctBy _ _
  have best : f.best.Nodup := distinct.sublist ((List.take_sublist r.rag.highScoreKeep _).map _)
  constructor
  case ids => exact whole
  case status => exact status
  case distinct => exact whole ▸ Fusion.nodup_evidence distinct best
  case known => exact whole ▸ fun id => Fusion.listed_of_mem_evidence
  case best => exact whole ▸ fun id => Fusion.best_mem_evidence
  case pinned => exact whole ▸ fun id => Fusion.pin_mem_evidence
  case last => exact ⟨_, added, rfl, late, rfl, scored, fun d mem => (addedEach d mem).1⟩

/-- A reranker that leaves out a document, repeats one and makes one up, with a pin that is
    a candidate, one that is not, and one without a record. -/
theorem retrieve_fused_pinned :
    let note (id : String) : KnowledgeRecord :=
      ⟨id, "s", "u", "r", id, .markdown, [], false, [], ⟨⟨2024, 1, 1⟩, 0, 0⟩⟩
    let nearby : List VectorMatch := ["a", "b", "c"].map fun id => ⟨id, .one, "s", "u", 10⟩
    let driver : ScriptedDriver :=
      ⟨"d", "en", [.embedding, .rerank], [], [], [.ok [⟨"c", .one⟩, ⟨"x", .one⟩, ⟨"c", .one⟩]],
        [], 0, 0, 0, none, none, ⟨[], [], []⟩⟩
    let r : Retriever := {
      router := ⟨⟨[⟨"d", "en", [.embedding, .rerank], 0⟩]⟩, [], ⟨"", []⟩, "en"⟩
      vectors := ⟨fun _ _ _ => .ok nearby⟩
      knowledge := .ofRecords (["c", "p", "a"].map note)
      pins := some (.ofTable [("t", ["p", "a", "p", "q"])])
      key := none
      rag := {} }
    let q : RetrievalRequest := ⟨"s", none, "?", none, [], some "t"⟩
    ∃ o v, r.retrieve q (.ofDrivers [driver]) = (.ok o, v)
      ∧ Evidence.ids o.docs = ["c", "a", "p"]
      ∧ ∃ found u, r.found q (.ofDrivers [driver]) = (.ok found, u)
        ∧ (r.replies q found u).Describes o := by
  intro note nearby driver r q
  have ids : ((r.retrieve q (.ofDrivers [driver])).1.toOption.map fun o =>
      Evidence.ids o.docs) = some ["c", "a", "p"] := by
    simp only [retrieve, ThresholdPolicy.candidates, ranking_eq]
    decide +kernel
  rcases answer : r.retrieve q (.ofDrivers [driver]) with ⟨_ | o, v⟩
  · simp [answer, Except.toOption] at ids
  · rw [answer] at ids
    exact ⟨o, v, rfl, by simpa [Except.toOption] using ids, retrieve_fused answer⟩

end Retriever

end NoteAssistant
