import NoteAssistant.Proofs.Retrieval.Degradation
import NoteAssistant.Proofs.Retrieval.Fusion

/-! # The faults of a retrieval

Seven steps of a retrieval can fail, some of which depend on what those before them have left.
`Retriever.faultAt` tells from the collaborators' replies whether a step fails and why, and
`Retriever.retrieve_fails` that a retrieval fails with the first of these faults and with
nothing else.
-/

namespace NoteAssistant

section FaultOf

variable {α β : Type}

def faultOf : Except Fault α → Option Fault
  | .ok _ => none
  | .error e => some e

theorem faultOf_eq_some {answer : Except Fault α} {e : Fault} :
    faultOf answer = some e ↔ answer = .error e := by
  cases answer <;> simp [faultOf]

theorem faultOf_eq_none {answer : Except Fault α} :
    faultOf answer = none ↔ ∃ a, answer = .ok a := by
  cases answer <;> simp [faultOf]

theorem faultOf_map (f : α → β) (answer : Except Fault α) :
    faultOf (answer.map f) = faultOf answer := by
  cases answer <;> rfl

theorem findSome?_cons_or (f : α → Option β) (a : α) (rest : List α) :
    (a :: rest).findSome? f = (f a).or (rest.findSome? f) := by
  rw [List.findSome?_cons]
  cases f a <;> rfl

/-- A traversal fails as the first item does that fails. -/
theorem faultOf_mapM (make : α → Except Fault β) (items : List α) :
    faultOf (items.mapM make) = items.findSome? fun a => faultOf (make a) := by
  induction items with
  | nil => rfl
  | cons a rest ih =>
      rw [List.mapM_cons, List.findSome?_cons, ← ih]
      cases make a with
      | error e => rfl
      | ok b => cases rest.mapM make <;> rfl

theorem Run.faultOf_bind (step : Run α) (next : α → Run β) (w : World) :
    faultOf ((step >>= next) w).1 =
      match step w with
      | (.ok a, v) => faultOf (next a v).1
      | (.error e, _) => some e := by
  rw [bind_eq]
  rcases step w with ⟨_ | _, _⟩ <;> rfl

end FaultOf

namespace KnowledgeRecord

/-- Why the text of a record cannot be read. -/
def fault? (r : KnowledgeRecord) (key : Option ContentKey) : Option Fault :=
  if r.encrypted then
    match key with
    | none =>
      some (.decrypt s!"knowledge {r.id} is encrypted but no content key is configured")
    | some key =>
      match key.decrypt r.content with
      | .error e => some e
      | .ok plain =>
        if (Text.Utf8.decode? plain).isSome then none
        else some (.decrypt s!"knowledge {r.id} decrypted to invalid UTF-8")
  else none

variable {r : KnowledgeRecord} {key : Option ContentKey}

theorem encrypted_of_fault? {e : Fault} (h : r.fault? key = some e) : r.encrypted = true := by
  unfold fault? at h
  split at h
  case isTrue encrypted => exact encrypted
  case isFalse => cases h

theorem faultOf_evidence : faultOf (r.evidence key) = r.fault? key := by
  rw [evidence, faultOf_map]
  unfold text fault?
  split
  case isFalse => rfl
  case isTrue =>
    cases key with
    | none => rfl
    | some key =>
        dsimp only
        cases key.decrypt r.content with
        | error e => rfl
        | ok plain =>
            dsimp only
            cases Text.Utf8.decode? plain <;> rfl

end KnowledgeRecord

namespace Evidence

/-- Why the record that is listed for an id cannot be read. Without a record there is nothing
    to read. -/
def fault? (key : Option ContentKey) (records : List KnowledgeRecord) (id : String) :
    Option Fault :=
  (record? records id).bind (·.fault? key)

variable {key : Option ContentKey} {records : List KnowledgeRecord}

/-- Making documents of what is picked fails as the first record does that cannot be read. -/
theorem faultOf_mapM_filterMap {α β : Type} {items : List α} {pick : α → Option β}
    {make : β → Except Fault EvidenceDoc} {name : α → String}
    (h : ∀ a, (pick a).bind (fun b => faultOf (make b)) = fault? key records (name a)) :
    faultOf ((items.filterMap pick).mapM make) =
      (items.map name).findSome? (fault? key records) := by
  rw [faultOf_mapM, ← List.head?_filterMap, List.filterMap_filterMap, List.head?_filterMap,
    List.findSome?_map]
  exact congrArg (List.findSome? · items) (funext h)

theorem faultOf_hydrate (candidates : List VectorMatch) :
    faultOf (hydrate key records candidates) =
      (candidates.map (·.knowledge)).findSome? (fault? key records) := by
  apply faultOf_mapM_filterMap
  intro m
  rw [fault?]
  cases record? records m.knowledge with
  | none => rfl
  | some r => exact (faultOf_map _ _).trans KnowledgeRecord.faultOf_evidence

theorem faultOf_pinned (wanted : List String) :
    faultOf (pinned key records wanted) = wanted.findSome? (fault? key records) := by
  rw [← congrArg (List.findSome? (fault? key records)) (List.map_id wanted)]
  apply faultOf_mapM_filterMap
  intro name
  rw [fault?, id_eq]
  cases record? records name with
  | none => rfl
  | some r => exact (faultOf_map _ _).trans KnowledgeRecord.faultOf_evidence

theorem culprit_of_findSome? {ids : List String} {e : Fault}
    (h : ids.findSome? (fault? key records) = some e) :
    ∃ id ∈ ids, ∃ record, record? records id = some record ∧ record.encrypted = true
      ∧ record.fault? key = some e := by
  obtain ⟨id, mem, failed⟩ := List.exists_of_findSome?_eq_some h
  obtain ⟨record, there, why⟩ := Option.bind_eq_some_iff.mp failed
  exact ⟨id, mem, record, there, KnowledgeRecord.encrypted_of_fault? why, why⟩

end Evidence

namespace Retriever

/-- A step of a retrieval that can fail. -/
inductive Step where
  | embedding
  | search
  | listing
  | reading
  | pinLookup
  | pinListing
  | pinReading
  deriving DecidableEq, Repr

/-- The steps in the order in which they are taken. -/
def Step.all : List Step :=
  [.embedding, .search, .listing, .reading, .pinLookup, .pinListing, .pinReading]

theorem Step.mem_all (step : Step) : step ∈ Step.all := by
  cases step <;> decide

/-- Why the store does not list the records of some ids. It is not asked for none. -/
def listFault? (r : Retriever) (space : String) (ids : List String) : Option Fault :=
  if ids = [] then none else faultOf (r.knowledge.list ⟨space, ids⟩)

/-- Why the notes pinned to a session are not known. -/
def pinFault? (r : Retriever) (session : Option String) : Option Fault :=
  match session, r.pins with
  | some session, some store => faultOf (store.pins session)
  | _, _ => none

/-- What the collaborators reply to a retrieval. -/
def fusion (r : Retriever) (q : RetrievalRequest) (w : World) : Fusion :=
  let (answer, u) := r.found q w
  r.replies q (answer.toOption.getD []) u

/-- Why a step of a retrieval fails, if those before it do not. -/
def faultAt (r : Retriever) (q : RetrievalRequest) (w : World) (step : Step) : Option Fault :=
  let f := r.fusion q w
  let embedded := (r.router.embedQuery (some r.rag.embedTimeoutMs) [q.query] w).1
  match step with
  | .embedding =>
    match embedded with
    | .error e => some (embeddingFault e)
    | .ok ⟨(_ :: _) :: _, _, _⟩ => none
    | .ok _ => some (.embedding "embedding returned no vectors")
  | .search =>
    match embedded with
    | .ok ⟨vector :: _, _, _⟩ =>
      faultOf (r.vectors.search ⟨q.space, q.user, q.resources⟩ vector r.rag.topK)
    | _ => none
  | .listing => r.listFault? q.space f.candidates
  | .reading => f.candidates.findSome? (Evidence.fault? r.key (f.listed f.candidates))
  | .pinLookup => r.pinFault? q.session
  | .pinListing => r.listFault? q.space f.wanted
  | .pinReading => f.wanted.findSome? (Evidence.fault? r.key (f.listed f.wanted))

variable {r : Retriever} {q : RetrievalRequest} {v w : World}

theorem faultOf_hydrate {space : String} {c : CandidateSet} :
    faultOf (r.hydrate space c) =
      (r.listFault? space c.ids).or
        (c.ids.findSome? (Evidence.fault? r.key (r.listed space c.ids))) := by
  have empty : c.ids = [] ↔ c.matched = [] := List.map_eq_nil_iff
  unfold hydrate listFault?
  by_cases none : c.matched = []
  · simp [none, empty.mpr none, faultOf]
  · rw [if_neg (by simpa using none), if_neg (none ∘ empty.mp)]
    unfold listed
    cases r.knowledge.list ⟨space, c.ids⟩ with
    | error e => rfl
    | ok records => exact Evidence.faultOf_hydrate c.matched

theorem faultOf_pinnedDocs {space : String} {session : Option String} {docs : List EvidenceDoc} :
    let wanted := Evidence.wanted docs (r.sessionPins session)
    faultOf (r.pinnedDocs space session docs) =
      (r.pinFault? session).or ((r.listFault? space wanted).or
        (wanted.findSome? (Evidence.fault? r.key (r.listed space wanted)))) := by
  have unpinned : Evidence.wanted docs [] = [] := rfl
  unfold pinnedDocs pinFault? sessionPins
  cases session with
  | none => simp [unpinned, listFault?, faultOf]
  | some session =>
      cases r.pins with
      | none => simp [unpinned, listFault?, faultOf]
      | some store =>
          dsimp only
          cases store.pins session with
          | error e => rfl
          | ok pins =>
              simp only [Except.toOption, Option.getD_some]
              split
              case h_1 none => simp [none, listFault?, faultOf]
              case h_2 some =>
                rw [listFault?, if_neg some]
                unfold listed
                cases r.knowledge.list ⟨space, Evidence.wanted docs pins⟩ with
                | error e => rfl
                | ok records => exact Evidence.faultOf_pinned _

/-- Whatever becomes of the reranking, it answers. -/
theorem rerank_answers (r : Retriever) (query : String) (docs : List EvidenceDoc) (w : World) :
    ∃ k v, r.rerank query docs w = (.ok k, v) := by
  unfold rerank
  split
  case isTrue => exact ⟨_, _, rfl⟩
  case isFalse =>
    cases r.router.reranker with
    | error e => exact ⟨_, _, rfl⟩
    | ok driver =>
        dsimp only
        rw [Run.bind_of_ok (Run.attempt_eq _ _)]
        rcases Run.rerank driver _ query _ w with ⟨_ | _, _⟩
        · exact ⟨_, _, rfl⟩
        · exact ⟨_, _, rfl⟩

theorem embed_eq (query : String) :
    r.embed query w =
      match r.router.embedQuery (some r.rag.embedTimeoutMs) [query] w with
      | (.ok output, v) => (.ok output, v)
      | (.error e, v) => (.error (embeddingFault e), v) := by
  unfold embed
  rw [Run.bind_of_ok (Run.attempt_eq _ _)]
  rcases r.router.embedQuery (some r.rag.embedTimeoutMs) [query] w with ⟨_ | _, _⟩ <;> rfl

theorem found_of_gather {output : EmbeddingOutput} {found : List VectorMatch}
    (h : r.gather q w = (.ok (output, found), v)) : r.found q w = (.ok found, v) := by
  unfold gather at h
  obtain ⟨_, _, embedded, h⟩ := Run.bind_eq_ok.mp h
  obtain ⟨_, _, lifted, h⟩ := Run.bind_eq_ok.mp h
  obtain ⟨_, _, searched, h⟩ := Run.bind_eq_ok.mp h
  cases h
  rw [Retriever.found, Run.bind_of_ok embedded, Run.bind_of_ok lifted, searched]

theorem fusion_of_gather {output : EmbeddingOutput} {found : List VectorMatch}
    (h : r.gather q w = (.ok (output, found), v)) : r.fusion q w = r.replies q found v := by
  simp only [fusion, found_of_gather h]
  rfl

theorem faultOf_search (vector : List Single) :
    faultOf (r.search q vector w).1 =
      faultOf (r.vectors.search ⟨q.space, q.user, q.resources⟩ vector r.rag.topK) :=
  congrArg faultOf (Run.lift_answer _ _)

theorem faultOf_gather :
    faultOf (r.gather q w).1 = (r.faultAt q w .embedding).or (r.faultAt q w .search) := by
  simp only [gather, faultAt]
  rw [Run.faultOf_bind, embed_eq]
  rcases r.router.embedQuery (some r.rag.embedTimeoutMs) [q.query] w with ⟨e | output, v⟩
  · rfl
  · obtain ⟨vectors, model, usage⟩ := output
    dsimp only
    rw [Run.faultOf_bind]
    cases vectors with
    | nil => rfl
    | cons first rest =>
        cases first with
        | nil => rfl
        | cons x xs =>
            simp only [vector, Router.lift, Run.pure_eq, Option.none_or]
            rw [Run.faultOf_bind, ← faultOf_search (w := v)]
            rcases r.search q (x :: xs) v with ⟨_ | _, _⟩ <;> rfl

/-- The notes that are pinned and still missing, as the reranking leaves them. -/
theorem wanted_fused {found : List VectorMatch} {docs : List EvidenceDoc} {k : Reranking}
    (hydrated : r.hydrate q.space (r.candidates found) = .ok docs)
    (reranked : r.rerank (q.rerankQuery.getD q.query) docs w = (.ok k, v)) :
    Evidence.wanted (r.kept found k) (r.sessionPins q.session) =
      (r.replies q found w).wanted := by
  obtain ⟨ordered, rescued, _⟩ := rerank_fused hydrated reranked
  have shown : Evidence.ids (r.kept found k) =
      (r.replies q found w).ordered ++ (r.replies q found w).rescued := by
    rw [kept, Evidence.ids, List.map_append]
    exact congrArg₂ (· ++ ·) ordered rescued
  rw [Evidence.wanted, shown]
  rfl

theorem faultOf_conclude {output : EmbeddingOutput} {found : List VectorMatch}
    (h : r.gather q w = (.ok (output, found), v)) :
    faultOf (r.conclude q output found v).1 =
      ((r.faultAt q w .listing).or (r.faultAt q w .reading)).or
        ((r.faultAt q w .pinLookup).or
          ((r.faultAt q w .pinListing).or (r.faultAt q w .pinReading))) := by
  have read : faultOf (r.hydrate q.space (r.candidates found)) =
      (r.faultAt q w .listing).or (r.faultAt q w .reading) := by
    simp only [faultAt, fusion_of_gather h]
    exact faultOf_hydrate
  rw [conclude, Run.faultOf_bind, ← read]
  cases hydrated : r.hydrate q.space (r.candidates found) with
  | error e => rfl
  | ok docs =>
      obtain ⟨k, u, reranked⟩ := r.rerank_answers (q.rerankQuery.getD q.query) docs v
      change faultOf ((r.rerank _ docs >>= fun k => Router.lift (r.finish q output found k)) v).1
        = _
      rw [Run.bind_of_ok reranked, Run.lift_answer, finish, faultOf_map, faultOf_pinnedDocs,
        wanted_fused hydrated reranked]
      simp only [faultAt, fusion_of_gather h]
      rfl

theorem faultOf_retrieve :
    faultOf (r.retrieve q w).1 = Step.all.findSome? (r.faultAt q w) := by
  rw [retrieve_eq, Run.faultOf_bind]
  simp only [Step.all, findSome?_cons_or, List.findSome?_nil, Option.or_none]
  rw [← Option.or_assoc, ← faultOf_gather]
  rcases gathered : r.gather q w with ⟨e | ⟨output, found⟩, u⟩
  · rfl
  · exact (faultOf_conclude gathered).trans (Option.or_assoc ..)

/-- Retrieval fails with the fault of the first step that fails, and if no step fails it
    returns an outcome. The reranker is no such step, and nothing but the encrypted record of a
    candidate or of a pinned note that is still missing makes one of the reading steps fail. -/
theorem retrieve_fails (r : Retriever) (q : RetrievalRequest) (w : World) :
    (∀ e, (r.retrieve q w).1 = .error e ↔ Step.all.findSome? (r.faultAt q w) = some e)
      ∧ ((∃ o, (r.retrieve q w).1 = .ok o) ↔ ∀ step, r.faultAt q w step = none)
      ∧ (∀ query docs u, ∃ k v, r.rerank query docs u = (.ok k, v))
      ∧ let f := r.fusion q w
        (∀ e, r.faultAt q w .reading = some e →
          ∃ id ∈ f.candidates, ∃ record,
            Evidence.record? (f.listed f.candidates) id = some record
              ∧ record.encrypted = true ∧ record.fault? r.key = some e)
        ∧ ∀ e, r.faultAt q w .pinReading = some e →
          ∃ id ∈ f.wanted, ∃ record,
            Evidence.record? (f.listed f.wanted) id = some record
              ∧ record.encrypted = true ∧ record.fault? r.key = some e := by
  refine ⟨?_, ?_, r.rerank_answers, ?_, ?_⟩
  · intro e
    rw [← faultOf_retrieve, faultOf_eq_some]
  · rw [← faultOf_eq_none, faultOf_retrieve, List.findSome?_eq_none_iff]
    constructor
    · intro none step
      exact none step (Step.mem_all step)
    · intro none step _
      exact none step
  · intro e
    apply Evidence.culprit_of_findSome?
  · intro e
    apply Evidence.culprit_of_findSome?

/-- Of two candidates one has no record, and without a key neither the other one nor a pinned note
    can be read. Drivers that fail, that are too slow, that return no vector and that answer; the
    last one again with records in plain text. -/
theorem retrieve_fails_keyless :
    let note (encrypted : Bool) (id : String) : KnowledgeRecord :=
      ⟨id, "s", "u", "r", id, .markdown, [], encrypted, [], ⟨⟨2024, 1, 1⟩, 0, 0⟩⟩
    let nearby : List VectorMatch := ["a", "b"].map fun id => ⟨id, .one, "s", "u", 10⟩
    let driver : ScriptedDriver :=
      ⟨"d", "en", [.embedding], [], [], [], [], 0, 0, 0, none, none, ⟨[], [], []⟩⟩
    let r (encrypted : Bool) : Retriever := {
      router := ⟨⟨[⟨"d", "en", [.embedding], 0⟩]⟩, [], ⟨"", []⟩, "en"⟩
      vectors := ⟨fun _ _ _ => .ok nearby⟩
      knowledge := .ofRecords (["p", "b"].map (note encrypted))
      pins := some (.ofTable [("t", ["p"])])
      key := none
      rag := {} }
    let q : RetrievalRequest := ⟨"s", none, "?", none, [], some "t"⟩
    let answer (encrypted : Bool) (d : ScriptedDriver) : Except Fault (List String) :=
      ((r encrypted).retrieve q (.ofDrivers [d])).1.map fun o => Evidence.ids o.docs
    (Step.all.filter fun step => ((r true).faultAt q (.ofDrivers [driver]) step).isSome) =
        [.reading, .pinReading]
      ∧ answer true { driver with embeddings := [.error "no quota"] } =
        .error (.embedding "provider error: no quota")
      ∧ answer true { driver with embedDelay := 10001 } = .error (.timeout (.ofMillis 10000))
      ∧ answer true { driver with embeddings := [.ok [[]]] } =
        .error (.embedding "embedding returned no vectors")
      ∧ answer true driver =
        .error (.decrypt "knowledge b is encrypted but no content key is configured")
      ∧ answer false driver = .ok ["b", "p"] := by
  intro note nearby driver r q answer
  have fails {d : ScriptedDriver} {e : Fault}
      (first : Step.all.findSome? ((r true).faultAt q (.ofDrivers [d])) = some e) :
      answer true d = .error e := by
    have failed := ((retrieve_fails (r true) q (.ofDrivers [d])).1 e).mpr first
    simp only [answer, failed]
    rfl
  refine ⟨?steps, fails ?failing, fails ?slow, fails ?silent, fails ?reading, ?plain⟩
  case plain =>
    simp only [answer, retrieve, ThresholdPolicy.candidates, ranking_eq]
    decide +kernel
  all_goals
    simp +unfoldPartialApp only [faultAt, fusion, replies, ThresholdPolicy.candidates, ranking_eq]
    decide +kernel

end Retriever

end NoteAssistant
