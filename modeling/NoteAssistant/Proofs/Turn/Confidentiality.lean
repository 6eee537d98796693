import Mathlib.Data.Finset.Dedup
import NoteAssistant.Proofs.Reply.Likeness
import NoteAssistant.Proofs.Retrieval.Sources
import NoteAssistant.Proofs.Turn.Preparation

/-! # Masked values do not reach a model

Two stores hold the same notes with the same masks, but the masks stand for other values.
A turn over the one store and a turn over the other one ask every driver for the same, tell
the sink the same, and answer the same, but for the values that the receiver reads.
-/

namespace NoteAssistant

def MaskTable.SameKeys (s t : MaskTable) : Prop := ∀ key, key ∈ s.map (·.1) ↔ key ∈ t.map (·.1)

/-- Records that differ in nothing but the values of their masks. -/
structure KnowledgeRecord.Alike (r s : KnowledgeRecord) : Prop where
  same : s = { r with masks := s.masks }
  masks : r.masks.SameKeys s.masks

/-- Documents that differ in nothing but the values of their masks. -/
structure EvidenceDoc.Alike (d e : EvidenceDoc) : Prop where
  same : e = { d with masks := e.masks }
  masks : d.masks.SameKeys e.masks

/-- Stores whose records differ in nothing but the values of their masks. -/
def KnowledgeStore.Alike (k l : KnowledgeStore) : Prop :=
  ∀ filter,
    match k.list filter, l.list filter with
    | .ok rs, .ok ss => List.Forall₂ KnowledgeRecord.Alike rs ss
    | .error e, .error f => e = f
    | _, _ => False

theorem KnowledgeStore.ofRecords_alike {rs ss : List KnowledgeRecord}
    (h : List.Forall₂ KnowledgeRecord.Alike rs ss) : (ofRecords rs).Alike (ofRecords ss) := by
  intro filter
  change List.Forall₂ KnowledgeRecord.Alike (rs.filter _) (ss.filter _)
  induction h with
  | nil => exact .nil
  | @cons r s rest rest' first _ ih =>
      have space : s.space = r.space := by rw [first.same]
      have id : s.id = r.id := by rw [first.same]
      cases wanted : decide (r.space = filter.space) && filter.ids.contains r.id with
      | true =>
          rw [List.filter_cons_of_pos (by simpa using wanted), List.filter_cons_of_pos]
          · exact .cons first ih
          · simpa [space, id] using wanted
      | false =>
          rw [List.filter_cons_of_neg (by simpa using wanted), List.filter_cons_of_neg]
          · exact ih
          · simpa [space, id] using wanted

/-! ## Masks without their values -/

namespace MaskTable

/-- The placeholders of masks, without their values. -/
noncomputable def blank (t : MaskTable) : MaskTable := (t.map (·.1)).toFinset.toList.map (·, "")

theorem mem_blank (t : MaskTable) (key : String) :
    key ∈ t.blank.map (·.1) ↔ key ∈ t.map (·.1) := by
  rw [blank, List.map_map]
  change key ∈ (t.map (·.1)).toFinset.toList.map id ↔ _
  rw [List.map_id, Finset.mem_toList, List.mem_toFinset]

theorem blank_eq_iff {s t : MaskTable} : s.blank = t.blank ↔ s.SameKeys t := by
  constructor
  · intro same key
    rw [← mem_blank s, same, mem_blank t]
  · intro same
    have keys : (s.map (·.1)).toFinset = (t.map (·.1)).toFinset := by
      ext key
      rw [List.mem_toFinset, List.mem_toFinset, same key]
    rw [blank, blank, keys]

end MaskTable

theorem KnowledgeRecord.Alike.remask {r s : KnowledgeRecord} (h : r.Alike s) :
    r.remask MaskTable.blank = s.remask MaskTable.blank := by
  rw [h.same, KnowledgeRecord.remask, KnowledgeRecord.remask, MaskTable.blank_eq_iff.mpr h.masks]

theorem EvidenceDoc.alike_of_remask {d e : EvidenceDoc}
    (h : d.remask MaskTable.blank = e.remask MaskTable.blank) : d.Alike e := by
  obtain ⟨id, resource, title, content, createdAt, score, pinned, masks⟩ := d
  obtain ⟨id', resource', title', content', createdAt', score', pinned', masks'⟩ := e
  obtain ⟨rfl, rfl, rfl, rfl, rfl, rfl, rfl, masks⟩ := EvidenceDoc.mk.injEq .. ▸ h
  exact ⟨rfl, MaskTable.blank_eq_iff.mp masks⟩

theorem KnowledgeStore.Alike.remask {k l : KnowledgeStore} (h : k.Alike l) :
    k.remask MaskTable.blank = l.remask MaskTable.blank := by
  refine congrArg KnowledgeStore.mk (funext fun filter => ?_)
  have alike := h filter
  cases left : k.list filter with
  | error e =>
      cases right : l.list filter with
      | error f =>
          simp only [left, right] at alike
          rw [alike]
      | ok ss => simp [left, right] at alike
  | ok rs =>
      cases right : l.list filter with
      | error f => simp [left, right] at alike
      | ok ss =>
          simp only [left, right] at alike
          refine congrArg Except.ok ?_
          clear left right
          induction alike with
          | nil => rfl
          | cons first _ ih => exact congrArg₂ List.cons first.remask ih

theorem EvidenceDoc.forall₂_alike {docs others : List EvidenceDoc}
    (h : docs.map (·.remask MaskTable.blank) = others.map (·.remask MaskTable.blank)) :
    List.Forall₂ EvidenceDoc.Alike docs others := by
  induction docs generalizing others with
  | nil =>
      obtain rfl := List.map_eq_nil_iff.mp h.symm
      exact .nil
  | cons d rest ih =>
      cases others with
      | nil => cases h
      | cons e rest' =>
          obtain ⟨first, later⟩ := List.cons.inj h
          exact .cons (EvidenceDoc.alike_of_remask first) (ih later)

theorem MaskMap.sameKeys_ofDocs {docs others : List EvidenceDoc}
    (h : List.Forall₂ EvidenceDoc.Alike docs others) :
    (MaskMap.ofDocs docs).SameKeys (.ofDocs others) := by
  refine MaskMap.sameKeys_ofEntries fun key => ?_
  induction h with
  | nil => rfl
  | cons first _ ih =>
      simp only [List.flatMap_cons, List.map_append, List.mem_append, ih, first.masks key]

/-! ## Two turns -/

/-- An assistant that reads another store of notes. -/
def Assistant.reading (a : Assistant) (k : KnowledgeStore) : Assistant :=
  { a with retriever := { a.retriever with knowledge := k } }

/-- Answers over two stores that differ in nothing but values the receiver reads. -/
structure TurnOutcome.Alike (k l : KnowledgeStore) (message : String) (c : StreamConfig)
    (o p : TurnOutcome) : Prop where
  enhanced : o.enhanced = p.enhanced
  evidence : o.evidence = p.evidence
  rerank : o.rerank = p.rerank
  usage : o.usage = p.usage
  /-- The replies are made from one stream with the masks of the evidence, which are those of
      records of the respective store. -/
  reply : ∃ (docs others : List EvidenceDoc) (steps : List StreamStep) (cancelAt : Option Nat),
    Evidence.ids docs = o.evidence ∧ List.Forall₂ EvidenceDoc.Alike docs others
      ∧ (∀ d ∈ docs, k.Lists d) ∧ (∀ d ∈ others, l.Lists d)
      ∧ o.reply = NoteAssistant.reply message steps (.ofDocs docs) c cancelAt
      ∧ p.reply = NoteAssistant.reply message steps (.ofDocs others) c cancelAt
      ∧ Told (.ofDocs docs) (.ofDocs others) (increments o.reply) (increments p.reply)

namespace Assistant

variable {a : Assistant} {q : TurnRequest} {cancelAt : Option Nat} {w v : World}

theorem prepare_lists {p : Prepared} (h : a.prepare q cancelAt w = (.ok p, v)) :
    ∀ d ∈ p.docs, a.retriever.knowledge.Lists d := by
  obtain ⟨u, u', retrieved⟩ := prepare_retrieved h
  exact Retriever.retrieve_lists retrieved

theorem prepare_alike (k l : KnowledgeStore) (alike : k.Alike l) :
    ((a.reading k).prepare q cancelAt w).2 = ((a.reading l).prepare q cancelAt w).2
      ∧ ((a.reading k).prepare q cancelAt w).1.map
            (fun p => { p with outcome := p.outcome.remask MaskTable.blank }) =
          ((a.reading l).prepare q cancelAt w).1.map
            fun p => { p with outcome := p.outcome.remask MaskTable.blank } := by
  have same : (a.reading k).remask MaskTable.blank = (a.reading l).remask MaskTable.blank := by
    simp only [remask, Retriever.remask, reading, alike.remask]
  have left := congrFun ((a.reading k).prepare_remask q cancelAt MaskTable.blank) w
  have right := congrFun ((a.reading l).prepare_remask q cancelAt MaskTable.blank) w
  rw [same, right, Run.map_eq, Run.map_eq] at left
  have both := Prod.mk.inj left
  exact ⟨both.2.symm, both.1.symm⟩

/-- No model is shown the value of a mask: over two stores that differ in nothing but such
    values a turn leaves the same world, with the same requests to all drivers and the same
    tool tips, and it fails in the same way or answers the same but for the values. -/
theorem turn_confidential (a : Assistant) (k l : KnowledgeStore) (alike : k.Alike l)
    (q : TurnRequest) (cancelAt : Option Nat) (w : World) :
    ((a.reading k).turn q cancelAt w).2 = ((a.reading l).turn q cancelAt w).2
      ∧ match ((a.reading k).turn q cancelAt w).1, ((a.reading l).turn q cancelAt w).1 with
        | .ok o, .ok p => o.Alike k l q.message a.stream p
        | .error e, .error f => e = f
        | _, _ => False := by
  obtain ⟨world, answer⟩ := a.prepare_alike k l alike
  rw [turn_eq, turn_eq, Run.map_eq, Run.map_eq]
  refine ⟨world, ?_⟩
  rcases left : (a.reading k).prepare q cancelAt w with ⟨e | o, u⟩
  · rcases right : (a.reading l).prepare q cancelAt w with ⟨f | p, v⟩
    · rw [left, right] at answer
      exact Except.error.inj answer
    · rw [left, right] at answer
      cases answer
  · rcases right : (a.reading l).prepare q cancelAt w with ⟨f | p, v⟩
    · rw [left, right] at answer
      cases answer
    · rw [left, right] at answer
      obtain ⟨enhanced, outcome, steps, opened⟩ := Prepared.mk.inj (Except.ok.inj answer)
      obtain ⟨_, docs, usage, rerank, _, _⟩ := RetrievalOutcome.mk.inj outcome
      have pairs : List.Forall₂ EvidenceDoc.Alike o.docs p.docs := EvidenceDoc.forall₂_alike docs
      have ids : Evidence.ids o.docs = Evidence.ids p.docs := by
        rw [← Evidence.ids_remask MaskTable.blank o.docs,
          ← Evidence.ids_remask MaskTable.blank p.docs]
        exact congrArg Evidence.ids docs
      have told := reply_told (MaskMap.sameKeys_ofDocs pairs) q.message o.steps a.stream
        (cancelAt.map (· - o.opened))
      constructor
      case enhanced => exact enhanced
      case evidence => exact ids
      case rerank => exact rerank
      case usage => exact congrArg₂ (fun e u => e.usageRecord?.toList ++ u) enhanced usage
      case reply =>
        have other : ((a.reading l).outcome q cancelAt p).reply =
            NoteAssistant.reply q.message o.steps (.ofDocs p.docs) a.stream
              (cancelAt.map (· - o.opened)) := by
          rw [steps, opened]
          rfl
        refine ⟨o.docs, p.docs, o.steps, _, rfl, pairs, prepare_lists left, prepare_lists right,
          rfl, other, ?_⟩
        rw [other]
        exact told

/-- One note in two versions, and a reply that holds its placeholder. -/
theorem turn_confidential_names :
    let note (name : String) : KnowledgeRecord :=
      ⟨"a", "s", "u", "r", "t", .markdown, [], false, [("u1", name)], ⟨⟨2024, 1, 1⟩, 0, 0⟩⟩
    let driver : ScriptedDriver :=
      ⟨"d", "en", [.chat, .embedding], [], [], [], [[.token (.ofContent "ask $hidden[u1]")]],
        0, 0, 0, none, none, ⟨[], [], []⟩⟩
    let a : Assistant := {
      retriever := {
        router := ⟨⟨[⟨"d", "en", [.chat, .embedding], 0⟩]⟩, [], ⟨"", []⟩, "en"⟩
        vectors := ⟨fun _ _ _ => .ok [⟨"a", .one, "s", "u", 10⟩]⟩
        knowledge := .ofRecords []
        pins := none
        key := none
        rag := {} }
      history := .ofMessages []
      watched := false
      stream := {} }
    let q : TurnRequest := ⟨"s", "u", "t", "who?", [], "m", none, none, ⟨⟨2024, 1, 1⟩, 0, 0⟩⟩
    let k : KnowledgeStore := .ofRecords [note "Alice"]
    let l : KnowledgeStore := .ofRecords [note "Bob"]
    let w : World := .ofDrivers [driver]
    k.Alike l
      ∧ ((a.reading k).turn q none w).2 = ((a.reading l).turn q none w).2
      ∧ ∃ o p, ((a.reading k).turn q none w).1 = .ok o ∧ ((a.reading l).turn q none w).1 = .ok p
        ∧ increments o.reply = [.text "ask Alice", .done]
        ∧ increments p.reply = [.text "ask Bob", .done]
        ∧ o.Alike k l q.message a.stream p := by
  intro note driver a q k l w
  have alike : k.Alike l := by
    refine KnowledgeStore.ofRecords_alike (.cons ⟨rfl, fun key => ?_⟩ .nil)
    rfl
  have left : (((a.reading k).turn q none w).1.toOption.map fun o => increments o.reply) =
      some [.text "ask Alice", .done] := by
    simp only [turn, Assistant.retrieve, Retriever.retrieve, ThresholdPolicy.candidates,
      ranking_eq]
    decide +kernel
  have right : (((a.reading l).turn q none w).1.toOption.map fun o => increments o.reply) =
      some [.text "ask Bob", .done] := by
    simp only [turn, Assistant.retrieve, Retriever.retrieve, ThresholdPolicy.candidates,
      ranking_eq]
    decide +kernel
  obtain ⟨world, answers⟩ := turn_confidential a k l alike q none w
  rcases first : (a.reading k).turn q none w with ⟨_ | o, u⟩
  · simp [first, Except.toOption] at left
  · rcases second : (a.reading l).turn q none w with ⟨_ | p, v⟩
    · simp [second, Except.toOption] at right
    · rw [first] at left world answers
      rw [second] at right world answers
      exact ⟨alike, world, o, p, rfl, rfl, Option.some.inj left, Option.some.inj right, answers⟩

end Assistant

end NoteAssistant
