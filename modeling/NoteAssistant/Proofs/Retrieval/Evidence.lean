import NoteAssistant.Proofs.Retrieval.Distinct
import NoteAssistant.Retrieval.Evidence

/-! # Which documents make up the evidence

Every operation on documents, seen through their ids alone: which ones it keeps, and in
which order.
-/

namespace NoteAssistant

/-- A traversal that succeeds has made one thing of each item. -/
theorem made_of_mapM {α β ε : Type} {make : α → Except ε β} {items : List α} {made : List β}
    (h : items.mapM make = .ok made) : List.Forall₂ (fun a b => make a = .ok b) items made := by
  induction items generalizing made with
  | nil =>
      cases h
      exact .nil
  | cons a rest ih =>
      rw [List.mapM_cons] at h
      cases first : make a with
      | error e =>
          rw [first] at h
          cases h
      | ok b =>
          rw [first] at h
          cases others : rest.mapM make with
          | error e =>
              change (rest.mapM make >>= fun bs => pure (b :: bs)) = .ok made at h
              rw [others] at h
              cases h
          | ok bs =>
              change (rest.mapM make >>= fun bs => pure (b :: bs)) = .ok made at h
              rw [others] at h
              cases h
              exact .cons first (ih others)

namespace KnowledgeRecord

variable {r : KnowledgeRecord} {key : Option ContentKey} {d : EvidenceDoc}

/-- The document of a record has its id and its masks, no score, and is not pinned. -/
theorem evidence_eq (h : r.evidence key = .ok d) :
    d.id = r.id ∧ d.score = none ∧ d.pinned = false ∧ d.masks = r.masks := by
  unfold evidence at h
  cases text : r.text key with
  | error e =>
      rw [text] at h
      cases h
  | ok content =>
      rw [text] at h
      cases h
      exact ⟨rfl, rfl, rfl, rfl⟩

theorem of_map_evidence {finish : EvidenceDoc → EvidenceDoc}
    (h : (r.evidence key).map finish = .ok d) :
    ∃ plain, r.evidence key = .ok plain ∧ d = finish plain := by
  cases made : r.evidence key with
  | error e =>
      rw [made] at h
      cases h
  | ok plain =>
      rw [made] at h
      cases h
      exact ⟨plain, rfl, rfl⟩

end KnowledgeRecord

namespace Evidence

def has (records : List KnowledgeRecord) (id : String) : Bool :=
  (records.map (·.id)).contains id

section Keys

variable {α β : Type} {name : α → String}

theorem map_find?_name (items : List α) (key : String) :
    (items.find? (name · = key)).map name = Option.guard (items.map name).contains key := by
  induction items with
  | nil => rfl
  | cons a rest ih =>
      by_cases here : name a = key
      · simp [Option.guard, here]
      · rw [List.find?_cons_of_neg (by simpa using here), ih]
        simp [Option.guard, Ne.symm here]

/-- The names of what is picked are the names of the items, filtered. -/
theorem map_filterMap_name {items : List α} {pick : α → Option β} {back : β → String}
    {keep : String → Bool} (h : ∀ a, (pick a).map back = Option.guard keep (name a)) :
    (items.filterMap pick).map back = (items.map name).filter keep := by
  rw [List.map_filterMap, ← List.filterMap_eq_filter, List.filterMap_map]
  exact congrArg (List.filterMap · items) (funext h)

end Keys

theorem map_id_find? (docs : List EvidenceDoc) (id : String) :
    (find? docs id).map (·.id) = Option.guard (ids docs).contains id :=
  map_find?_name docs id

theorem map_id_record? (records : List KnowledgeRecord) (id : String) :
    (record? records id).map (·.id) = Option.guard (has records) id := by
  rw [record?, map_find?_name]
  simp [Option.guard, has]

/-- What holds of every document that is made of a record. -/
theorem each_of_mapM {α : Type} {key : Option ContentKey} {items : List α}
    {docs : List EvidenceDoc} {Is : EvidenceDoc → Prop} (record : α → KnowledgeRecord)
    (finish : α → EvidenceDoc → EvidenceDoc)
    (each : ∀ a ∈ items, ∀ plain, (record a).evidence key = .ok plain →
      (finish a plain).id = (record a).id ∧ Is (finish a plain))
    (h : items.mapM (fun a => ((record a).evidence key).map (finish a)) = .ok docs) :
    ids docs = items.map (fun a => (record a).id) ∧ ∀ d ∈ docs, Is d := by
  have made := made_of_mapM h
  clear h
  induction made with
  | nil => simp [ids]
  | @cons a d rest _ first _ ih =>
      obtain ⟨plain, made, rfl⟩ := KnowledgeRecord.of_map_evidence first
      obtain ⟨id, holds⟩ := each a List.mem_cons_self plain made
      obtain ⟨later, all⟩ := ih fun b mem => each b (List.mem_cons_of_mem a mem)
      refine ⟨congrArg₂ List.cons id later, ?_⟩
      rintro d (_ | ⟨_, mem⟩)
      · exact holds
      · exact all d mem

/-- A document as the search finds it. -/
def Scored (d : EvidenceDoc) : Prop := d.score.isSome = true ∧ d.pinned = false

/-- A document that is there only because it is pinned. -/
def Added (d : EvidenceDoc) : Prop := d.score = none ∧ d.pinned = true

/-- A document of one of these records. -/
def From (records : List KnowledgeRecord) (d : EvidenceDoc) : Prop :=
  ∃ r ∈ records, r.id = d.id ∧ r.masks = d.masks

theorem mem_of_record? {records : List KnowledgeRecord} {id : String} {r : KnowledgeRecord}
    (h : record? records id = some r) : r ∈ records :=
  List.mem_reverse.mp (List.mem_of_find?_eq_some h)

theorem hydrate_spec {key : Option ContentKey} {records : List KnowledgeRecord}
    {candidates : List VectorMatch} {docs : List EvidenceDoc}
    (h : hydrate key records candidates = .ok docs) :
    ids docs = (candidates.map (·.knowledge)).filter (has records)
      ∧ ∀ d ∈ docs, Scored d ∧ From records d := by
  let scored (p : VectorMatch × KnowledgeRecord) (d : EvidenceDoc) : EvidenceDoc :=
    { d with score := some p.1.score }
  have listed : ((candidates.filterMap fun m =>
        (record? records m.knowledge).map (m, ·)).map fun p => p.2.id) =
      (candidates.map (·.knowledge)).filter (has records) := by
    refine map_filterMap_name fun m => ?_
    rw [Option.map_map]
    exact map_id_record? records m.knowledge
  rw [← listed]
  refine each_of_mapM Prod.snd scored (fun p mem plain made => ?_) h
  obtain ⟨m, _, found⟩ := List.mem_filterMap.mp mem
  obtain ⟨r, here, rfl⟩ := Option.map_eq_some_iff.mp found
  obtain ⟨id, _, unpinned, masks⟩ := KnowledgeRecord.evidence_eq made
  exact ⟨id, ⟨rfl, unpinned⟩, r, mem_of_record? here, id.symm, masks.symm⟩

theorem pinned_spec {key : Option ContentKey} {records : List KnowledgeRecord}
    {wanted : List String} {docs : List EvidenceDoc} (h : pinned key records wanted = .ok docs) :
    ids docs = wanted.filter (has records) ∧ ∀ d ∈ docs, Added d ∧ From records d := by
  let flagged (_ : KnowledgeRecord) (d : EvidenceDoc) : EvidenceDoc := { d with pinned := true }
  have listed : (wanted.filterMap (record? records)).map (·.id) =
      (wanted.map id).filter (has records) :=
    map_filterMap_name fun name => map_id_record? records name
  rw [List.map_id] at listed
  rw [← listed]
  refine each_of_mapM (fun r => r) flagged (fun r mem plain made => ?_) h
  obtain ⟨name, _, here⟩ := List.mem_filterMap.mp mem
  obtain ⟨id, unscored, _, masks⟩ := KnowledgeRecord.evidence_eq made
  exact ⟨id, ⟨unscored, rfl⟩, r, mem_of_record? here, id.symm, masks.symm⟩

theorem ids_reordered (docs : List EvidenceDoc) (results : List RerankedDoc) :
    ids (reordered docs results) =
      (distinctBy id (results.map (·.id))).filter (ids docs).contains := by
  rw [← map_distinctBy]
  refine map_filterMap_name fun r => ?_
  rw [Option.map_map]
  exact map_id_find? docs r.id

theorem ids_dropped (docs : List EvidenceDoc) (results : List RerankedDoc) :
    ids (dropped docs results) =
      (ids docs).filter fun id => !(results.map (·.id)).contains id := by
  rw [ids, ids, List.filter_map]
  rfl

theorem ids_absent (highScore : List VectorMatch) (docs : List EvidenceDoc) :
    (absent highScore docs).map (·.knowledge) =
      (highScore.map (·.knowledge)).filter fun id => !(ids docs).contains id := by
  rw [List.filter_map]
  rfl

theorem ids_restored (highScore : List VectorMatch) (docs left : List EvidenceDoc) :
    ids (restored highScore docs left) =
      ((highScore.map (·.knowledge)).filter fun id => !(ids docs).contains id).filter
        (ids left).contains := by
  rw [← ids_absent]
  refine map_filterMap_name fun m => ?_
  rw [Option.map_map]
  exact map_id_find? left m.knowledge

/-- Reranking changes nothing about a document but its score. -/
theorem mem_reordered {docs : List EvidenceDoc} {results : List RerankedDoc} {d : EvidenceDoc}
    (h : d ∈ reordered docs results) :
    ∃ plain ∈ docs, ∃ score, d = { plain with score := some score } := by
  obtain ⟨r, _, found⟩ := List.mem_filterMap.mp h
  obtain ⟨plain, here, rfl⟩ := Option.map_eq_some_iff.mp found
  exact ⟨plain, List.mem_of_find?_eq_some here, r.score, rfl⟩

theorem mem_restored {highScore : List VectorMatch} {docs left : List EvidenceDoc}
    {d : EvidenceDoc} (h : d ∈ restored highScore docs left) :
    ∃ plain ∈ left, ∃ score, d = { plain with score := some score } := by
  obtain ⟨m, _, found⟩ := List.mem_filterMap.mp h
  obtain ⟨plain, here, rfl⟩ := Option.map_eq_some_iff.mp found
  exact ⟨plain, List.mem_of_find?_eq_some here, m.score, rfl⟩

theorem reordered_scored {docs : List EvidenceDoc} {results : List RerankedDoc}
    (scored : ∀ d ∈ docs, Scored d) : ∀ d ∈ reordered docs results, Scored d := by
  intro d mem
  obtain ⟨plain, there, score, rfl⟩ := mem_reordered mem
  exact ⟨rfl, (scored plain there).2⟩

theorem restored_scored {highScore : List VectorMatch} {docs left : List EvidenceDoc}
    (scored : ∀ d ∈ left, Scored d) : ∀ d ∈ restored highScore docs left, Scored d := by
  intro d mem
  obtain ⟨plain, there, score, rfl⟩ := mem_restored mem
  exact ⟨rfl, (scored plain there).2⟩

/-- What is restored after reranking are the best documents that the reranker has left out. -/
theorem ids_restored_reordered (highScore : List VectorMatch) (docs : List EvidenceDoc)
    (results : List RerankedDoc) :
    ids (restored highScore (reordered docs results) (dropped docs results)) =
      (highScore.map (·.knowledge)).filter fun id =>
        (ids docs).contains id && !(ids (reordered docs results)).contains id := by
  have left (id : String) : id ∈ ids (dropped docs results) ↔
      id ∈ ids docs ∧ id ∉ results.map (·.id) := by
    rw [ids_dropped]
    simp
  have kept (id : String) : id ∈ ids (reordered docs results) ↔
      id ∈ results.map (·.id) ∧ id ∈ ids docs := by
    rw [ids_reordered]
    simp [mem_distinctBy_id]
  rw [ids_restored, List.filter_filter]
  refine List.filter_congr fun id _ => ?_
  rw [Bool.eq_iff_iff]
  simp only [Bool.and_eq_true, Bool.not_eq_true', List.contains_iff_mem, ← Bool.not_eq_true,
    left, kept]
  tauto

end Evidence

end NoteAssistant
