import NoteAssistant.Proofs.Retrieval.Remasking
import NoteAssistant.Turn

/-! # The preparation of a reply

Everything a turn does before the reply is made from a stream. A model is asked in this
part only, and nothing in it depends on masks (`Assistant.prepare_remask`).
-/

namespace NoteAssistant

/-- What a reply is made from. -/
structure Prepared where
  enhanced : EnhancedQuery
  outcome : RetrievalOutcome
  steps : List StreamStep
  /-- The moment at which the stream is opened. -/
  opened : Nat

def Prepared.docs (p : Prepared) : List EvidenceDoc := p.outcome.docs

def Prepared.reply (p : Prepared) (message : String) (c : StreamConfig) (cancelAt : Option Nat) :
    List Choice :=
  NoteAssistant.reply message p.steps (.ofDocs p.docs) c (cancelAt.map (· - p.opened))

namespace Assistant

variable (a : Assistant) (q : TurnRequest) (cancelAt : Option Nat)

/-- An event is sent out whether the sink takes it or not. -/
theorem offer_world (s : Sink) (event : Event) (w : World) :
    (s.offer event w).2 = { w with emitted := w.emitted ++ [event] } := by
  have sent : Run.emit event w = (.ok (), { w with emitted := w.emitted ++ [event] }) := rfl
  unfold Sink.offer
  rw [Run.bind_get, Run.bind_of_ok sent]
  split <;> rfl

/-- Whether the sink takes a tip makes no difference. -/
theorem tip_eq (tool : String) (status : ToolStatus) (detail : String) :
    a.tip q tool status detail =
      if a.watched then Run.emit (.tip ⟨q.message, tool, status, detail⟩) else pure () := by
  unfold tip
  split
  case isFalse => rfl
  case isTrue =>
    funext w
    rw [Run.bind_of_ok (Run.attempt_eq _ _), offer_world]
    rfl

/-- A turn up to the opening of the stream. -/
def prepare : Run Prepared := do
  let lang := q.lang.getD a.router.lang
  let history := a.loadHistory q
  Run.ensureBefore cancelAt .cancelled
  let enhanced ← a.enhance q history lang
  Run.ensureBefore cancelAt .cancelled
  let outcome ← a.retrieve q enhanced
  Run.ensureBefore cancelAt .cancelled
  let steps ← a.router.openStream (a.request q history lang outcome.docs)
  let opened := (← get).clock
  pure ⟨enhanced, outcome, steps, opened⟩

/-- What a turn answers when its reply is prepared. -/
def outcome (p : Prepared) : TurnOutcome where
  enhanced := p.enhanced
  evidence := Evidence.ids p.docs
  rerank := p.outcome.rerank
  usage := p.enhanced.usageRecord?.toList ++ p.outcome.usage
  reply := p.reply q.message a.stream cancelAt

theorem turn_eq : a.turn q cancelAt = a.outcome q cancelAt <$> a.prepare q cancelAt := by
  unfold turn prepare
  simp only [map_bind, map_pure]
  rfl

/-- The request for the evidence of a turn. -/
def evidenceRequest (enhanced : EnhancedQuery) : RetrievalRequest :=
  ⟨q.space, some q.user, enhanced.text, some q.query, q.resources, some q.session⟩

section Stages

variable {a q cancelAt} {w v : World}

/-- Evidence comes from a retrieval that has succeeded. -/
theorem retrieve_retrieved {enhanced : EnhancedQuery} {o : RetrievalOutcome}
    (h : a.retrieve q enhanced w = (.ok o, v)) :
    ∃ u u', a.retriever.retrieve (evidenceRequest q enhanced) u = (.ok o, u') := by
  unfold retrieve at h
  obtain ⟨_, u, _, h⟩ := Run.bind_eq_ok.mp h
  obtain ⟨answer, u', attempted, h⟩ := Run.bind_eq_ok.mp h
  cases answer with
  | error e =>
      obtain ⟨_, _, _, h⟩ := Run.bind_eq_ok.mp h
      cases h
  | ok outcome =>
      have same : outcome = o := by
        obtain ⟨_, _, _, h⟩ := Run.bind_eq_ok.mp h
        split at h
        case isTrue =>
          obtain ⟨_, _, _, h⟩ := Run.bind_eq_ok.mp h
          cases h
          rfl
        case isFalse =>
          cases h
          rfl
      obtain ⟨done, world⟩ := Prod.mk.inj (Run.attempt_eq _ _ ▸ attempted)
      exact ⟨u, u', Prod.ext (same ▸ Except.ok.inj done) world⟩

theorem prepare_retrieved {p : Prepared} (h : a.prepare q cancelAt w = (.ok p, v)) :
    ∃ u u', a.retriever.retrieve (evidenceRequest q p.enhanced) u = (.ok p.outcome, u') := by
  unfold prepare at h
  obtain ⟨_, _, _, h⟩ := Run.bind_eq_ok.mp h
  obtain ⟨enhanced, _, _, h⟩ := Run.bind_eq_ok.mp h
  obtain ⟨_, _, _, h⟩ := Run.bind_eq_ok.mp h
  obtain ⟨outcome, _, retrieved, h⟩ := Run.bind_eq_ok.mp h
  obtain ⟨_, _, _, h⟩ := Run.bind_eq_ok.mp h
  obtain ⟨steps, _, _, h⟩ := Run.bind_eq_ok.mp h
  obtain ⟨_, _, _, h⟩ := Run.bind_eq_ok.mp h
  cases h
  exact retrieve_retrieved retrieved

end Stages

section Masks

variable (g : MaskTable → MaskTable)

def remask : Assistant := { a with retriever := a.retriever.remask g }

theorem request_remask (history : List HistoryMessage) (lang : String)
    (docs : List EvidenceDoc) :
    a.request q history lang (docs.map (·.remask g)) = a.request q history lang docs := by
  have passages : Passages.render (docs.map (·.remask g)) = Passages.render docs := by
    rw [Passages.render, Passages.render, List.map_map]
    simp only [List.map_eq_nil_iff]
    rfl
  simp only [request, PromptAssembler.build, PromptAssembler.values, passages]

theorem retrieve_remask (enhanced : EnhancedQuery) :
    (a.remask g).retrieve q enhanced =
      RetrievalOutcome.remask g <$> a.retrieve q enhanced := by
  have retriever : (a.remask g).retriever = a.retriever.remask g := rfl
  have tip : (a.remask g).tip = a.tip := rfl
  unfold retrieve
  simp only [retriever, tip, Retriever.retrieve_remask, Run.attempt_map, bind_map_left, map_bind]
  refine bind_congr fun _ => bind_congr fun answer => ?_
  cases answer with
  | error e =>
      simp only [Except.map, map_bind]
      rfl
  | ok outcome =>
      have docs : (outcome.remask g).docs.length = outcome.docs.length := List.length_map _
      have rerank : (outcome.remask g).rerank = outcome.rerank := rfl
      simp only [Except.map, docs, rerank, map_bind]
      refine bind_congr fun _ => ?_
      split <;> simp

/-- The preparation of a reply does not depend on masks. -/
theorem prepare_remask :
    (a.remask g).prepare q cancelAt =
      (fun p => { p with outcome := p.outcome.remask g }) <$> a.prepare q cancelAt := by
  have router : (a.remask g).router = a.router := rfl
  have history : (a.remask g).loadHistory q = a.loadHistory q := rfl
  have enhance : (a.remask g).enhance = a.enhance := rfl
  have docs (o : RetrievalOutcome) : (o.remask g).docs = o.docs.map (·.remask g) := rfl
  have request (history : List HistoryMessage) (lang : String) (docs : List EvidenceDoc) :
      (a.remask g).request q history lang docs = a.request q history lang docs := rfl
  unfold prepare
  simp only [router, history, enhance, retrieve_remask, bind_map_left, docs, request,
    request_remask, map_bind, map_pure]

end Masks

end Assistant

end NoteAssistant
