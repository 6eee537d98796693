import NoteAssistant.Proofs.Retrieval.Degradation
import NoteAssistant.Proofs.Turn.Preparation

/-! # A turn whose query cannot be enhanced

An attempt to enhance the query that fails takes time and leaves no other trace: the turn goes
on as one that makes no attempt, for which a cancellation is due by that time earlier
(`Assistant.unenhanced`). Together with the law of a reranker that fails
(`Retriever.retrieve_rankless`) this is `degrades_unnoticed`.
-/

namespace NoteAssistant

open World

/-! ## What an attempt leaves -/

/-- Only time, a chat reply and a request have been spent. -/
structure World.Spent (w v : World) : Prop where
  clock : w.clock ≤ v.clock
  searches : v.searches = w.searches
  drivers : v.drivers.map (·.unasked) = w.drivers.map (·.unasked)

theorem World.Spent.refl (w : World) : w.Spent w := ⟨Nat.le_refl _, rfl, rfl⟩

theorem ScriptedDriver.unasked_complete (d : ScriptedDriver) (request : ChatRequest) :
    (d.complete request).2.unasked = d.unasked := by
  unfold complete
  dsimp only [record]
  split <;> simp [unasked]

theorem Run.complete_spent (e : DriverEntry) (limit : Option Nat) (request : ChatRequest)
    (w : World) : w.Spent (Run.complete e limit request w).2 := by
  unfold Run.complete Run.call
  cases there : w.drivers[e.place]? with
  | none => exact .refl w
  | some d =>
      dsimp only
      split
      case isTrue =>
        refine ⟨Nat.le_add_right _ _, rfl, ?_⟩
        dsimp only
        rw [List.map_set, d.unasked_complete]
        apply List.ext_getElem?
        intro i
        rw [List.getElem?_set]
        split
        case isTrue here =>
          subst here
          obtain ⟨inside, same⟩ := List.getElem?_eq_some_iff.mp there
          simp [inside, same]
        case isFalse => rfl
      case isFalse => exact ⟨Nat.le_add_right _ _, rfl, rfl⟩

theorem Enhancement.enhance_spent (r : Router) (rag : RagConfig) (limit : Option Nat)
    (query : String) (history : List HistoryMessage) (lang : String) (now : Local) (w : World) :
    w.Spent (Enhancement.enhance r rag limit query history lang now w).2 := by
  unfold Enhancement.enhance
  split
  case isTrue => exact .refl w
  case isFalse =>
    cases r.enhancer with
    | error e => exact .refl w
    | ok driver =>
        have asked := Run.complete_spent driver limit
          (Enhancement.request r rag query history lang now) w
        rw [Run.bind_of_ok (Run.lift_eq_ok.mpr ⟨rfl, rfl⟩), Run.bind_eq]
        rcases done : Run.complete driver limit
          (Enhancement.request r rag query history lang now) w with ⟨answer, u⟩
        rw [done] at asked
        cases answer with
        | error e => exact asked
        | ok reply =>
            dsimp only
            cases Enhancement.alternatives reply.content query with
            | error e => exact asked
            | ok wordings => exact asked

/-! ## Turns -/

/-- What a reply depends on. Of the clock only the time that is left until a cancellation
    counts. -/
def Prepared.basis (cancelAt : Option Nat) (p : Prepared) :
    EnhancedQuery × RetrievalOutcome × List StreamStep × Option Nat :=
  (p.enhanced, p.outcome, p.steps, cancelAt.map (· - p.opened))

namespace Assistant

variable (a : Assistant) (q : TurnRequest) (cancelAt : Option Nat)

/-- The attempt of a turn to have its query enhanced. -/
def attempt : Run EnhancedQuery :=
  Enhancement.enhance a.router a.rag (some a.rag.enhanceTimeoutMs) q.query (a.loadHistory q)
    (q.lang.getD a.router.lang) q.now

/-- The world when the sink has been told that an attempt failed. -/
def told (v : World) : World := (a.tip q Tool.enhance .failed "using original query" v).2

/-- What a turn makes of an attempt: without an answer the query stays as it is. -/
def settle : Except Fault EnhancedQuery → Run EnhancedQuery
  | .ok enhanced => pure enhanced
  | .error _ => do
    a.tip q Tool.enhance .failed "using original query"
    pure (.plain q.query)

/-- The assistant that enhances no query before its history has `n` messages. -/
def patient (n : Nat) : Assistant :=
  { a with retriever := { a.retriever with rag := { a.rag with enhanceMinHistory := n } } }

/-- The preparation of a reply from an enhanced query on. -/
def proceed (enhanced : EnhancedQuery) : Run Prepared := do
  Run.ensureBefore cancelAt .cancelled
  let outcome ← a.retrieve q enhanced
  Run.ensureBefore cancelAt .cancelled
  let lang := q.lang.getD a.router.lang
  let steps ← a.router.openStream (a.request q (a.loadHistory q) lang outcome.docs)
  let opened := (← get).clock
  pure ⟨enhanced, outcome, steps, opened⟩

/-- What a turn answers, told by what its reply depends on. -/
def answer : EnhancedQuery × RetrievalOutcome × List StreamStep × Option Nat → TurnOutcome
  | (enhanced, outcome, steps, left) => {
    enhanced := enhanced
    evidence := Evidence.ids outcome.docs
    rerank := outcome.rerank
    usage := enhanced.usageRecord?.toList ++ outcome.usage
    reply := NoteAssistant.reply q.message steps (.ofDocs outcome.docs) a.stream left }

theorem prepare_eq :
    a.prepare q cancelAt = (do
      Run.ensureBefore cancelAt .cancelled
      let answer ← Run.attempt (a.attempt q)
      let enhanced ← a.settle q answer
      a.proceed q cancelAt enhanced) := by
  unfold prepare enhance
  simp only [bind_assoc]
  rfl

theorem turn_eq_answer (w : World) :
    a.turn q cancelAt w =
      (((a.prepare q cancelAt w).1.map (Prepared.basis cancelAt)).map (a.answer q),
        (a.prepare q cancelAt w).2) := by
  have same : a.outcome q cancelAt = a.answer q ∘ Prepared.basis cancelAt := rfl
  rw [turn_eq, Run.map_eq, same]
  cases (a.prepare q cancelAt w).1 <;> rfl

section Stages

variable {a q cancelAt} {w v : World}

theorem ensureBefore_of_later {moment : Option Nat} (later : moment.any (· ≤ w.clock) = false)
    (e : Fault) : Run.ensureBefore moment e w = (.ok (), w) := by
  rw [Run.ensureBefore_eq, later]
  rfl

/-- A turn whose attempt fails goes on with the query as it is. -/
theorem prepare_of_error {e : Fault} (begun : cancelAt.any (· ≤ w.clock) = false)
    (failed : a.attempt q w = (.error e, v)) :
    a.prepare q cancelAt w = a.proceed q cancelAt (.plain q.query) (a.told q v) := by
  have settled : a.settle q (.error e) v = (.ok (.plain q.query), a.told q v) := by
    unfold settle told
    rw [tip_eq]
    split <;> rfl
  rw [prepare_eq, Run.bind_of_ok (ensureBefore_of_later begun _),
    Run.bind_of_ok (Run.attempt_eq _ _), failed, Run.bind_of_ok settled]

/-- So does a turn that makes no attempt. -/
theorem prepare_of_short (short : (a.loadHistory q).length < a.rag.enhanceMinHistory) :
    a.prepare q cancelAt w = a.proceed q cancelAt (.plain q.query) w := by
  have plain : a.attempt q w = (.ok (.plain q.query), w) := by
    unfold attempt Enhancement.enhance
    rw [if_pos short]
    rfl
  cases come : cancelAt.any (· ≤ w.clock) with
  | true =>
      have stopped : Run.ensureBefore cancelAt .cancelled w = (.error .cancelled, w) := by
        rw [Run.ensureBefore_eq, come]
        rfl
      rw [prepare_eq, proceed, Run.bind_eq, Run.bind_eq, stopped]
  | false =>
      rw [prepare_eq, Run.bind_of_ok (ensureBefore_of_later come _),
        Run.bind_of_ok (Run.attempt_eq _ _), plain]
      exact Run.bind_of_ok (v := w) rfl _

end Stages

section InStep

variable {a q} {v w : World}

theorem tip_inStep (tool : String) (status : ToolStatus) (detail : String) :
    Run.InStep v w (a.tip q tool status detail) (a.tip q tool status detail) := by
  rw [tip_eq]
  split
  case isTrue => exact .emit _
  case isFalse => exact .pure _

theorem retrieve_inStep (enhanced : EnhancedQuery) :
    Run.InStep v w (a.retrieve q enhanced) (a.retrieve q enhanced) := by
  unfold retrieve
  refine .bind (tip_inStep _ _ _) fun _ => ?_
  refine .bind (.attempt Retriever.retrieve_inStep) fun answer => ?_
  cases answer with
  | error e => exact .bind (tip_inStep _ _ _) fun _ => .throw e
  | ok outcome =>
      refine .bind (tip_inStep _ _ _) fun _ => ?_
      split
      case isTrue => exact .bind (tip_inStep _ _ _) fun _ => .pure outcome
      case isFalse => exact .pure outcome

theorem openStream_inStep (r : Router) (request : ChatRequest) :
    Run.InStep v w (r.openStream request) (r.openStream request) := by
  unfold Router.openStream
  refine .bind (.lift _) fun driver => ?_
  exact .call driver none (fun _ => rfl) (ScriptedDriver.openStream_heedless request)

/-- The steps from an enhanced query on stay in step, with a cancellation that is due as much
    earlier as the other world lags behind. -/
theorem proceed_inStep (later : w.clock ≤ v.clock) (cancelAt : Option Nat)
    (enhanced : EnhancedQuery) :
    let sooner := cancelAt.map (· - (v.clock - w.clock))
    Run.InStep v w (Prepared.basis cancelAt <$> a.proceed q cancelAt enhanced)
      (Prepared.basis sooner <$> a.proceed q sooner enhanced) := by
  intro sooner
  simp only [proceed, map_bind, map_pure]
  refine .bind (.ensureBefore later cancelAt _) fun _ => ?_
  refine .bind (retrieve_inStep enhanced) fun outcome => ?_
  refine .bind (.ensureBefore later cancelAt _) fun _ => ?_
  refine .bind (openStream_inStep _ _) fun steps => ?_
  intro u u' beside
  have time := beside.clock
  have left : cancelAt.map (· - u.clock) = sooner.map (· - u'.clock) := by
    cases cancelAt with
    | none => rfl
    | some c =>
        simp only [sooner, Option.map_some, Option.some.injEq]
        omega
  rw [Run.bind_get, Run.bind_get]
  refine ⟨?_, beside⟩
  simp only [Run.pure_eq, Prepared.basis, left]

end InStep

/-- Two turns in one world that make the same reply, and of which the first asks and tells
    from `v` on what the second asks and tells from the start. -/
structure Matches (a b : Assistant) (q : TurnRequest) (cancelAt sooner : Option Nat)
    (v w : World) : Prop where
  /-- The evidence with its masks, the stream, and the time that is left for it. -/
  prepared : (a.prepare q cancelAt w).1.map (Prepared.basis cancelAt) =
    (b.prepare q sooner w).1.map (Prepared.basis sooner)
  answer : (a.turn q cancelAt w).1 = (b.turn q sooner w).1
  asked : Alongside v w (a.turn q cancelAt w).2 (b.turn q sooner w).2

/-- A failed attempt changes nothing of a turn but the time that is left. -/
theorem unenhanced {w v : World} {e : Fault} {n : Nat}
    (begun : cancelAt.any (· ≤ w.clock) = false) (failed : a.attempt q w = (.error e, v))
    (short : (a.loadHistory q).length < n) :
    a.Matches (a.patient n) q cancelAt (cancelAt.map (· - (v.clock - w.clock))) (a.told q v) w := by
  have spent : w.Spent v := by
    have left := Enhancement.enhance_spent a.router a.rag (some a.rag.enhanceTimeoutMs) q.query
      (a.loadHistory q) (q.lang.getD a.router.lang) q.now w
    rwa [← attempt, failed] at left
  have told : (a.told q v).clock = v.clock ∧ (a.told q v).searches = v.searches
      ∧ (a.told q v).drivers = v.drivers := by
    unfold Assistant.told
    rw [tip_eq]
    split <;> exact ⟨rfl, rfl, rfl⟩
  obtain ⟨clock, searches, drivers⟩ := told
  have beside : Alongside (a.told q v) w (a.told q v) w :=
    .start (searches.trans spent.searches) (drivers ▸ spent.drivers)
  have later : w.clock ≤ (a.told q v).clock := clock ▸ spent.clock
  -- Both turns go on with the plain query, one after the attempt and one from the start.
  obtain ⟨same, beside⟩ :=
    proceed_inStep (a := a) (q := q) later cancelAt (.plain q.query) _ _ beside
  have second (sooner : Option Nat) :
      (a.patient n).prepare q sooner w = a.proceed q sooner (.plain q.query) w :=
    prepare_of_short (a := a.patient n) short
  rw [clock, Run.map_eq, Run.map_eq, ← prepare_of_error begun failed, ← second] at same beside
  dsimp only at same beside
  have answer : (a.patient n).answer q = a.answer q := rfl
  constructor
  case prepared => exact same
  case answer => rw [turn_eq_answer, turn_eq_answer, answer, same]
  case asked =>
    rw [turn_eq_answer, turn_eq_answer]
    exact beside

end Assistant

/-- A failed enhancement and a failed reranker go unnoticed: a turn goes on as one that makes no
    attempt to enhance its query, and a retrieval as one by drivers of which none ranks. -/
theorem degrades_unnoticed :
    (∀ (a : Assistant) (q : TurnRequest) (cancelAt : Option Nat) (w v : World) (e : Fault)
        (n : Nat),
      cancelAt.any (· ≤ w.clock) = false → a.attempt q w = (.error e, v) →
      (a.loadHistory q).length < n →
      a.Matches (a.patient n) q cancelAt (cancelAt.map (· - (v.clock - w.clock)))
        (a.told q v) w) ∧
    ∀ (r : Retriever) (s : Router) (q : RetrievalRequest) (w v : World) (e : Fault),
      r.rerankReply q w = some (.error e) → s.embedder v = r.router.embedder w → s.Rankless →
      ((r.routed s).retrieve q v).1 =
          (r.retrieve q w).1.map (fun o => { o with rerank := .skipped })
        ∧ ∀ o, (r.retrieve q w).1 = .ok o → o.rerank = .degraded := by
  constructor
  · intro a q cancelAt w v e n begun failed short
    exact a.unenhanced q cancelAt begun failed short
  · intro r s q w v e failed same none
    exact Retriever.retrieve_rankless failed same none

namespace Slow

/-- A driver that fails to enhance a query after five milliseconds, and to rank documents. -/
def driver : ScriptedDriver :=
  ⟨"d", "en", [.chat, .embedding, .rerank], [.error "down"], [], [.error "broken"],
    [[.token (.ofContent "ask"), .pause 10]], 5, 0, 0, none, none, ⟨[], [], []⟩⟩

def world : World := .ofDrivers [driver]

def note (id : String) : KnowledgeRecord :=
  ⟨id, "s", "u", "r", id, .markdown, [], false, [], ⟨⟨2024, 1, 1⟩, 0, 0⟩⟩

def message (role : ChatRole) (content : String) : HistoryMessage :=
  ⟨"1", "t", role, content, ⟨⟨2024, 1, 1⟩, 0, 0⟩⟩

def assistant : Assistant where
  retriever := {
    router := ⟨⟨[⟨"d", "en", [.chat, .embedding, .rerank], 0⟩]⟩, [], ⟨"", []⟩, "en"⟩
    vectors := ⟨fun _ _ _ => .ok [⟨"a", .one, "s", "u", 10⟩, ⟨"b", .one, "s", "u", 10⟩]⟩
    knowledge := .ofRecords [note "a", note "b"]
    pins := none
    key := none
    rag := {} }
  history := .ofMessages [message .user "one", message .assistant "two"]
  watched := true
  stream := {}

def request : TurnRequest :=
  ⟨"s", "u", "t", "who?", [], "m", none, none, ⟨⟨2024, 1, 1⟩, 0, 0⟩⟩

/-- The retrieval of a turn with this request. -/
def retrieval : RetrievalRequest := Assistant.evidenceRequest request (.plain request.query)

end Slow

section Slow

open Slow

/-- A turn that is cancelled three milliseconds after its attempt has failed. -/
theorem degrades_unnoticed_slow :
    let v := (assistant.attempt request world).2
    let r := assistant.retriever
    (some 8).any (· ≤ world.clock) = false
      ∧ assistant.attempt request world = (.error (.provider "down"), v)
      ∧ (assistant.loadHistory request).length < 3
      ∧ v.clock - world.clock = 5
      ∧ (assistant.turn request (some 8) world).1.toOption.map (fun o => o.reply.map (·.increment)) =
        some [.text "ask", .cancelled]
      ∧ assistant.Matches (assistant.patient 3) request (some 8)
        ((some 8).map (· - (v.clock - world.clock))) (assistant.told request v) world
      ∧ r.rerankReply retrieval world = some (.error (.rerank "broken"))
      ∧ r.router.unranked.embedder world = r.router.embedder world
      ∧ r.router.unranked.Rankless
      ∧ ((r.routed r.router.unranked).retrieve retrieval world).1 =
          (r.retrieve retrieval world).1.map (fun o => { o with rerank := .skipped })
      ∧ ∀ o, (r.retrieve retrieval world).1 = .ok o → o.rerank = .degraded := by
  intro v r
  have begun : (some 8).any (· ≤ world.clock) = false := by decide
  have fails : (assistant.attempt request world).1 = .error (.provider "down") := by
    decide +kernel
  have failed : assistant.attempt request world = (.error (.provider "down"), v) :=
    Prod.ext fails rfl
  have short : (assistant.loadHistory request).length < 3 := by decide +kernel
  have took : v.clock - world.clock = 5 := by decide +kernel
  have reply : (assistant.turn request (some 8) world).1.toOption.map
      (fun o => o.reply.map (·.increment)) = some [.text "ask", .cancelled] := by
    simp only [Assistant.turn, Assistant.retrieve, Retriever.retrieve,
      ThresholdPolicy.candidates, ranking_eq]
    decide +kernel
  have broken : r.rerankReply retrieval world = some (.error (.rerank "broken")) := by
    simp only [Retriever.rerankReply, Retriever.candidates, ThresholdPolicy.candidates,
      ranking_eq]
    decide +kernel
  have same := r.router.embedder_unranked world
  have none := r.router.unranked_rankless
  exact ⟨begun, failed, short, took, reply,
    degrades_unnoticed.1 assistant request (some 8) world v _ 3 begun failed short, broken, same,
    none, degrades_unnoticed.2 r r.router.unranked retrieval world world _ broken same none⟩

/-- A cancellation at one and the same moment of the clock comes while the attempt is made, and
    after the reply where none is made. -/
theorem unenhanced_cancelled :
    ¬ ∀ (a : Assistant) (q : TurnRequest) (cancelAt : Option Nat) (w v : World) (e : Fault)
        (n : Nat), cancelAt.any (· ≤ w.clock) = false → a.attempt q w = (.error e, v) →
      (a.loadHistory q).length < n →
      (a.turn q cancelAt w).1 = ((a.patient n).turn q cancelAt w).1 := by
  intro always
  have fails : (assistant.attempt request world).1 = .error (.provider "down") := by
    decide +kernel
  have same := always assistant request (some 3) world _ _ 3 (by decide) (Prod.ext fails rfl)
    (by decide +kernel)
  have stopped : (assistant.turn request (some 3) world).1.toOption = none := by
    simp only [Assistant.turn, Assistant.retrieve, Retriever.retrieve,
      ThresholdPolicy.candidates, ranking_eq]
    decide +kernel
  have answered : ((assistant.patient 3).turn request (some 3) world).1.toOption.isSome := by
    simp only [Assistant.turn, Assistant.retrieve, Retriever.retrieve,
      ThresholdPolicy.candidates, ranking_eq]
    decide +kernel
  rw [← same, stopped] at answered
  cases answered

end Slow

end NoteAssistant
