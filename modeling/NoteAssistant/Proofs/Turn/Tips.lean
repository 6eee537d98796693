import NoteAssistant.Proofs.Turn.Degradation

/-! # What a turn tells about its steps

While a reply is prepared only `Assistant.tip` sends out events: attempts, retrievals and streams
are quiet (`Run.Quiet`). So the tips of a turn are settled by how far it gets and what its steps
come to (`Assistant.Course`), and `turn_tips` is the law that they follow.
-/

namespace NoteAssistant

namespace Run

variable {α β : Type}

/-- A step that sends out no event. -/
def Quiet (step : Run α) : Prop := ∀ w, (step w).2.emitted = w.emitted

namespace Quiet

theorem pure (a : α) : Quiet (pure a) := fun _ => rfl

theorem throw (e : Fault) : Quiet (throw e : Run α) := fun _ => rfl

theorem lift (answer : Except Fault α) : Quiet (Router.lift answer) := by
  cases answer with
  | ok a => exact pure a
  | error e => exact throw e

theorem bind {step : Run α} {next : α → Run β} (first : Quiet step)
    (rest : ∀ a, Quiet (next a)) : Quiet (step >>= next) := by
  intro w
  rw [bind_eq, ← first w]
  rcases step w with ⟨e | a, v⟩
  · rfl
  · exact rest a v

theorem attempt {step : Run α} (h : Quiet step) : Quiet (attempt step) := h

theorem noteSearch (s : Search) : Quiet (noteSearch s) := fun _ => rfl

theorem ensureBefore (moment : Option Nat) (e : Fault) : Quiet (ensureBefore moment e) := by
  intro w
  rw [ensureBefore_eq]
  split <;> rfl

theorem get : Quiet (get : Run World) := fun _ => rfl

theorem call (e : DriverEntry) (delay : ScriptedDriver → Nat) (limit : Option Nat)
    (ask : ScriptedDriver → Except Fault α × ScriptedDriver) : Quiet (call e delay limit ask) := by
  intro w
  unfold Run.call
  cases w.drivers[e.place]? with
  | none => rfl
  | some d =>
      dsimp only
      split <;> rfl

end Quiet

end Run

theorem Enhancement.enhance_quiet (r : Router) (rag : RagConfig) (limit : Option Nat)
    (query : String) (history : List HistoryMessage) (lang : String) (now : Local) :
    Run.Quiet (Enhancement.enhance r rag limit query history lang now) := by
  unfold Enhancement.enhance
  split
  case isTrue => exact .pure _
  case isFalse =>
    refine .bind (.lift _) fun driver => .bind (.call driver _ _ _) fun reply => ?_
    exact .bind (.lift _) fun wordings => .pure _

theorem Router.openStream_quiet (r : Router) (request : ChatRequest) :
    Run.Quiet (r.openStream request) :=
  .bind (.lift _) fun driver => .call driver _ _ _

namespace Retriever

variable (r : Retriever)

theorem embed_quiet (query : String) : Run.Quiet (r.embed query) := by
  refine .bind (.attempt (.bind (.lift _) fun driver => .call driver _ _ _)) fun answer => ?_
  cases answer with
  | ok output => exact .pure _
  | error e => exact .throw _

theorem rerank_quiet (query : String) (docs : List EvidenceDoc) :
    Run.Quiet (r.rerank query docs) := by
  unfold rerank
  split
  case isTrue => exact .pure _
  case isFalse =>
    cases r.router.reranker with
    | error e => exact .pure _
    | ok driver =>
        refine .bind (.attempt (.call driver _ _ _)) fun answer => ?_
        cases answer with
        | ok output => exact .pure _
        | error e => exact .pure _

theorem retrieve_quiet (q : RetrievalRequest) : Run.Quiet (r.retrieve q) := by
  refine .bind (r.embed_quiet q.query) fun output => .bind (.lift _) fun vector => ?_
  refine .bind (.bind (.noteSearch _) fun _ => .lift _) fun found => ?_
  refine .bind (.lift _) fun docs => .bind (r.rerank_quiet _ docs) fun reranking => ?_
  exact .bind (.lift _) fun pinned => .pure _

end Retriever

/-- The world in which a sink, if there is one, has been handed some tips. -/
def World.hearing (w : World) (watched : Bool) (tips : List ToolTip) : World :=
  { w with emitted := w.emitted ++ if watched then tips.map .tip else [] }

theorem World.hearing_hearing (w : World) (watched : Bool) (s t : List ToolTip) :
    (w.hearing watched s).hearing watched t = w.hearing watched (s ++ t) := by
  cases watched <;> simp [hearing]

theorem World.hearing_nil (w : World) (watched : Bool) : w.hearing watched [] = w := by
  cases watched <;> simp [hearing]

/-- What has been handed to a sink before makes no difference to a retrieval. -/
theorem Retriever.retrieve_hearing (r : Retriever) (q : RetrievalRequest) (w : World)
    (watched : Bool) (tips : List ToolTip) :
    (r.retrieve q (w.hearing watched tips)).1 = (r.retrieve q w).1 := by
  have beside : World.Alongside (w.hearing watched tips) w (w.hearing watched tips) w :=
    .start rfl rfl
  exact (Retriever.retrieve_inStep _ _ beside).1

namespace Assistant

variable (a : Assistant) (q : TurnRequest) (cancelAt : Option Nat)

/-- The query after an attempt to enhance it. -/
def settled : Except Fault EnhancedQuery → EnhancedQuery
  | .ok enhanced => enhanced
  | .error _ => .plain q.query

/-- Nothing is told about an attempt unless it fails. -/
def attemptTips : Except Fault EnhancedQuery → List ToolTip
  | .ok _ => []
  | .error _ => [⟨q.message, Tool.enhance, .failed, "using original query"⟩]

def searching : ToolTip := ⟨q.message, Tool.search, .running, "searching knowledge base"⟩

/-- What is told when a search is over. -/
def searchTips : Except Fault RetrievalOutcome → List ToolTip
  | .error e => [⟨q.message, Tool.search, .failed, e.message⟩]
  | .ok o =>
    ⟨q.message, Tool.search, .success, s!"{o.docs.length} documents"⟩ ::
      if o.rerank = .degraded then
        [⟨q.message, Tool.rerank, .failed, "rerank unavailable, using retrieval order"⟩]
      else []

/-- The tips of a turn, by what an attempt and a search have come to if they have been made. -/
def tips (attempted : Option (Except Fault EnhancedQuery))
    (searched : Option (Except Fault RetrievalOutcome)) : List ToolTip :=
  attempted.elim [] (attemptTips q) ++ searched.elim [] fun o => searching q :: searchTips q o

/-- How far a turn gets before a cancellation, and what its attempt and its search come to. -/
inductive Course (w : World) : Option (Except Fault EnhancedQuery) →
    Option (Except Fault RetrievalOutcome) → Prop where
  | cancelled (come : cancelAt.any (· ≤ w.clock) = true) : Course w none none
  | attempted {answer : Except Fault EnhancedQuery} {v : World}
      (begun : cancelAt.any (· ≤ w.clock) = false) (tried : a.attempt q w = (answer, v))
      (come : cancelAt.any (· ≤ v.clock) = true) : Course w (some answer) none
  | searched {answer : Except Fault EnhancedQuery} {v : World}
      (begun : cancelAt.any (· ≤ w.clock) = false) (tried : a.attempt q w = (answer, v))
      (live : cancelAt.any (· ≤ v.clock) = false) :
      Course w (some answer)
        (some (a.retriever.retrieve (evidenceRequest q (settled q answer)) v).1)

section Steps

variable {a q cancelAt} {w v : World}

theorem tip_hearing (tool : String) (status : ToolStatus) (detail : String) (w : World) :
    a.tip q tool status detail w =
      (.ok (), w.hearing a.watched [⟨q.message, tool, status, detail⟩]) := by
  rw [tip_eq]
  split
  case isTrue watched =>
    simp only [World.hearing, watched]
    rfl
  case isFalse silent =>
    simp only [World.hearing, silent]
    simp

theorem settle_hearing (answer : Except Fault EnhancedQuery) (w : World) :
    a.settle q answer w = (.ok (settled q answer), w.hearing a.watched (attemptTips q answer)) := by
  cases answer with
  | ok enhanced => rw [attemptTips, World.hearing_nil]; rfl
  | error e => rw [settle, Run.bind_of_ok (tip_hearing ..)]; rfl

theorem retrieve_hearing (enhanced : EnhancedQuery) (w : World) :
    a.retrieve q enhanced w =
      let (answer, v) := a.retriever.retrieve (evidenceRequest q enhanced)
        (w.hearing a.watched [searching q])
      (answer, v.hearing a.watched (searchTips q answer)) := by
  unfold retrieve
  rw [Run.bind_of_ok (tip_hearing ..), Run.bind_of_ok (Run.attempt_eq _ _), evidenceRequest,
    searching]
  rcases a.retriever.retrieve _ _ with ⟨e | o, v⟩
  · dsimp only
    rw [Run.bind_of_ok (tip_hearing ..)]
    rfl
  · dsimp only
    rw [Run.bind_of_ok (tip_hearing ..), searchTips]
    split
    case isTrue =>
      rw [Run.bind_of_ok (tip_hearing ..), World.hearing_hearing]
      rfl
    case isFalse => rfl

theorem ensureBefore_of_come {moment : Option Nat} (come : moment.any (· ≤ w.clock) = true)
    (e : Fault) : Run.ensureBefore moment e w = (.error e, w) := by
  rw [Run.ensureBefore_eq, come]
  rfl

theorem prepare_of_come (come : cancelAt.any (· ≤ w.clock) = true) :
    a.prepare q cancelAt w = (.error .cancelled, w) := by
  rw [prepare_eq, Run.bind_eq, ensureBefore_of_come come]

/-- A turn goes on with what it makes of its attempt. -/
theorem prepare_of_attempt {answer : Except Fault EnhancedQuery}
    (begun : cancelAt.any (· ≤ w.clock) = false) (tried : a.attempt q w = (answer, v)) :
    a.prepare q cancelAt w = a.proceed q cancelAt (settled q answer)
      (v.hearing a.watched (attemptTips q answer)) := by
  rw [prepare_eq, Run.bind_of_ok (ensureBefore_of_later begun _),
    Run.bind_of_ok (Run.attempt_eq _ _), tried, Run.bind_of_ok (settle_hearing answer v)]

theorem proceed_of_come {enhanced : EnhancedQuery} (come : cancelAt.any (· ≤ w.clock) = true) :
    a.proceed q cancelAt enhanced w = (.error .cancelled, w) := by
  rw [proceed, Run.bind_eq, ensureBefore_of_come come]

theorem proceed_of_failed {enhanced : EnhancedQuery} {e : Fault}
    (live : cancelAt.any (· ≤ w.clock) = false)
    (failed : a.retrieve q enhanced w = (.error e, v)) :
    a.proceed q cancelAt enhanced w = (.error e, v) := by
  rw [proceed, Run.bind_of_ok (ensureBefore_of_later live _), Run.bind_eq, failed]

/-- Behind its search a turn tells nothing more, and keeps what has been found. -/
theorem proceed_of_found {enhanced : EnhancedQuery} {o : RetrievalOutcome}
    (live : cancelAt.any (· ≤ w.clock) = false)
    (found : a.retrieve q enhanced w = (.ok o, v)) :
    (a.proceed q cancelAt enhanced w).2.emitted = v.emitted ∧
      ∀ p, (a.proceed q cancelAt enhanced w).1 = .ok p → p.outcome = o := by
  rw [proceed, Run.bind_of_ok (ensureBefore_of_later live _), Run.bind_of_ok found]
  constructor
  · refine Run.Quiet.bind (.ensureBefore _ _) (fun _ => ?_) v
    exact .bind (a.router.openStream_quiet _) fun steps => .bind .get fun _ => .pure _
  · intro p done
    obtain ⟨_, u, _, done⟩ := Run.bind_eq_ok.mp (Prod.ext done rfl)
    obtain ⟨_, _, _, done⟩ := Run.bind_eq_ok.mp done
    obtain ⟨_, _, _, done⟩ := Run.bind_eq_ok.mp done
    cases done
    rfl

end Steps

/-- What a turn tells and answers is settled by its course. -/
structure Follows (w : World) (attempted : Option (Except Fault EnhancedQuery))
    (searched : Option (Except Fault RetrievalOutcome)) : Prop where
  emitted : (a.turn q cancelAt w).2.emitted =
    w.emitted ++ if a.watched then (tips q attempted searched).map .tip else []
  cancelled : searched = none → (a.turn q cancelAt w).1 = .error .cancelled
  failed : ∀ e, searched = some (.error e) → (a.turn q cancelAt w).1 = .error e
  found : ∀ o t, searched = some (.ok o) → (a.turn q cancelAt w).1 = .ok t →
    t.evidence = Evidence.ids o.docs ∧ t.rerank = o.rerank

section Courses

variable {a q cancelAt} {w : World} {attempted : Option (Except Fault EnhancedQuery)}
  {searched : Option (Except Fault RetrievalOutcome)}

theorem turn_answer (w : World) :
    (a.turn q cancelAt w).1 = (a.prepare q cancelAt w).1.map (a.outcome q cancelAt) := by
  rw [turn_eq, Run.map_eq]

theorem turn_world (w : World) : (a.turn q cancelAt w).2 = (a.prepare q cancelAt w).2 := by
  rw [turn_eq, Run.map_eq]

theorem emitted_of_attempt {answer : Except Fault EnhancedQuery} {v : World}
    (tried : a.attempt q w = (answer, v)) : v.emitted = w.emitted := by
  have quiet := Enhancement.enhance_quiet a.router a.rag (some a.rag.enhanceTimeoutMs) q.query
    (a.loadHistory q) (q.lang.getD a.router.lang) q.now w
  rwa [← attempt, tried] at quiet

/-- The world behind the search of a turn, with all that has been told. -/
theorem retrieve_emitted {answer : Except Fault EnhancedQuery} {v : World}
    (tried : a.attempt q w = (answer, v)) :
    ∃ u, a.retrieve q (settled q answer) (v.hearing a.watched (attemptTips q answer)) =
        ((a.retriever.retrieve (evidenceRequest q (settled q answer)) v).1, u) ∧
      u.emitted = w.emitted ++ if a.watched then
        (tips q (some answer)
          (some (a.retriever.retrieve (evidenceRequest q (settled q answer)) v).1)).map .tip
        else [] := by
  have heard := retrieve_hearing (a := a) (q := q) (settled q answer)
    (v.hearing a.watched (attemptTips q answer))
  rw [World.hearing_hearing] at heard
  have same := a.retriever.retrieve_hearing (evidenceRequest q (settled q answer)) v a.watched
    (attemptTips q answer ++ [searching q])
  have quiet := a.retriever.retrieve_quiet (evidenceRequest q (settled q answer))
    (v.hearing a.watched (attemptTips q answer ++ [searching q]))
  rcases found : a.retriever.retrieve (evidenceRequest q (settled q answer))
    (v.hearing a.watched (attemptTips q answer ++ [searching q])) with ⟨result, x⟩
  rw [found] at heard same quiet
  dsimp only at heard same quiet
  rw [← same]
  refine ⟨_, heard, ?_⟩
  simp only [World.hearing, quiet, emitted_of_attempt tried, tips]
  cases a.watched <;> simp

theorem Course.follows (course : a.Course q cancelAt w attempted searched) :
    a.Follows q cancelAt w attempted searched := by
  cases course with
  | cancelled come =>
      refine ⟨?_, fun _ => ?_, nofun, nofun⟩
      · rw [turn_world, prepare_of_come come]
        simp [tips]
      · rw [turn_answer, prepare_of_come come]
        rfl
  | @attempted answer v begun tried come =>
      have stopped : a.prepare q cancelAt w =
          (.error .cancelled, v.hearing a.watched (attemptTips q answer)) := by
        rw [prepare_of_attempt begun tried]
        exact proceed_of_come come
      refine ⟨?_, fun _ => ?_, nofun, nofun⟩
      · rw [turn_world, stopped]
        simp [tips, World.hearing, emitted_of_attempt tried]
      · rw [turn_answer, stopped]
        rfl
  | @searched answer v begun tried live =>
      obtain ⟨u, retrieved, emitted⟩ := retrieve_emitted tried
      have live : cancelAt.any (· ≤ (v.hearing a.watched (attemptTips q answer)).clock) = false :=
        live
      generalize (a.retriever.retrieve (evidenceRequest q (settled q answer)) v).1 = result at *
      have goes := prepare_of_attempt begun tried
      cases result with
      | error e =>
          rw [proceed_of_failed live retrieved] at goes
          refine ⟨?_, nofun, fun _ same => ?_, nofun⟩
          · rw [turn_world, goes, emitted]
          · cases same
            rw [turn_answer, goes]
            rfl
      | ok o =>
          obtain ⟨told, kept⟩ := proceed_of_found live retrieved
          rw [← goes] at told kept
          refine ⟨?_, nofun, nofun, fun _ t same done => ?_⟩
          · rw [turn_world, told, emitted]
          · cases same
            rw [turn_answer] at done
            rcases prepared : (a.prepare q cancelAt w).1 with e | p
            · rw [prepared] at done
              cases done
            · rw [prepared] at done
              cases done
              obtain rfl := kept p prepared
              exact ⟨rfl, rfl⟩

/-- A turn has a course. -/
theorem exists_course (a : Assistant) (q : TurnRequest) (cancelAt : Option Nat) (w : World) :
    ∃ attempted searched, a.Course q cancelAt w attempted searched := by
  cases begun : cancelAt.any (· ≤ w.clock) with
  | true => exact ⟨_, _, .cancelled begun⟩
  | false =>
      rcases tried : a.attempt q w with ⟨answer, v⟩
      cases live : cancelAt.any (· ≤ v.clock) with
      | true => exact ⟨_, _, .attempted begun tried live⟩
      | false => exact ⟨_, _, .searched begun tried live⟩

end Courses

/-- Every step that is said to be running is said to be over, before anything else is said. -/
inductive AllEnded : List ToolTip → Prop where
  | nil : AllEnded []
  | ended {t : ToolTip} {ts : List ToolTip} (ended : t.status ≠ .running) (rest : AllEnded ts) :
      AllEnded (t :: ts)
  | running {t u : ToolTip} {ts : List ToolTip} (same : u.tool = t.tool)
      (ended : u.status ≠ .running) (rest : AllEnded ts) : AllEnded (t :: u :: ts)

theorem allEnded_tips (attempted : Option (Except Fault EnhancedQuery))
    (searched : Option (Except Fault RetrievalOutcome)) :
    AllEnded (tips q attempted searched) := by
  have search : AllEnded (searched.elim [] fun o => searching q :: searchTips q o) := by
    rcases searched with _ | e | o
    · exact .nil
    · exact .running rfl nofun .nil
    · refine .running rfl nofun ?_
      split
      case isTrue => exact .ended nofun .nil
      case isFalse => exact .nil
  rcases attempted with _ | e | enhanced
  · exact search
  · exact .ended nofun search
  · exact search

theorem message_of_mem_tips {attempted : Option (Except Fault EnhancedQuery)}
    {searched : Option (Except Fault RetrievalOutcome)} {t : ToolTip}
    (mem : t ∈ tips q attempted searched) : t.message = q.message := by
  rcases List.mem_append.mp mem with mem | mem
  · rcases attempted with _ | e | enhanced
    · cases mem
    · rw [List.mem_singleton.mp mem]
    · cases mem
  · rcases searched with _ | answer
    · cases mem
    · rcases List.mem_cons.mp mem with rfl | mem
      · rfl
      · rcases answer with e | o
        · rw [List.mem_singleton.mp mem]
        · rcases List.mem_cons.mp mem with rfl | mem
          · rfl
          · split at mem
            case isTrue => rw [List.mem_singleton.mp mem]
            case isFalse => cases mem

/-- The sink has no part in a turn. -/
theorem turn_sink (s : Sink) :
    ({ a with sink := s } : Assistant).turn q cancelAt = a.turn q cancelAt := by
  have tip : ({ a with sink := s } : Assistant).tip = a.tip := by
    funext q tool status detail
    rw [tip_eq, tip_eq]
  have enhance : ({ a with sink := s } : Assistant).enhance = a.enhance := by
    unfold enhance
    rw [tip]
    rfl
  have retrieve : ({ a with sink := s } : Assistant).retrieve = a.retrieve := by
    unfold retrieve
    rw [tip]
  unfold turn
  rw [enhance, retrieve]
  rfl

end Assistant

theorem turn_tips (a : Assistant) (q : TurnRequest) (cancelAt : Option Nat) (w : World) :
    ∃ attempted searched,
      a.Course q cancelAt w attempted searched ∧
      a.Follows q cancelAt w attempted searched ∧
      Assistant.AllEnded (Assistant.tips q attempted searched) ∧
      (∀ t ∈ Assistant.tips q attempted searched, t.message = q.message) ∧
      ∀ s : Sink, ({ a with sink := s } : Assistant).turn q cancelAt w = a.turn q cancelAt w := by
  obtain ⟨attempted, searched, course⟩ := a.exists_course q cancelAt w
  exact ⟨attempted, searched, course, course.follows, Assistant.allEnded_tips q _ _,
    fun t => Assistant.message_of_mem_tips q, fun s => congrFun (a.turn_sink q cancelAt s) w⟩

section Slow

open Slow

/-- A turn whose attempt and whose reranker fail, with a sink that takes nothing. -/
theorem turn_tips_slow :
    let a : Assistant := { assistant with sink := .broken }
    ∃ attempted searched,
      a.Course request none world attempted searched ∧
      a.Follows request none world attempted searched ∧
      (Assistant.tips request attempted searched).map (fun t => (t.tool, t.status, t.detail)) =
        [("enhance_query", .failed, "using original query"),
          ("knowledge_search", .running, "searching knowledge base"),
          ("knowledge_search", .success, "2 documents"),
          ("rerank", .failed, "rerank unavailable, using retrieval order")] ∧
      assistant.turn request none world = a.turn request none world := by
  intro a
  obtain ⟨attempted, searched, course, follows, -, -, sink⟩ := turn_tips a request none world
  have emitted : ((a.turn request none world).2.emitted.filterMap fun
      | .tip t => some (t.tool, t.status, t.detail)
      | .choice _ => none) = [("enhance_query", .failed, "using original query"),
        ("knowledge_search", .running, "searching knowledge base"),
        ("knowledge_search", .success, "2 documents"),
        ("rerank", .failed, "rerank unavailable, using retrieval order")] := by
    simp only [Assistant.turn, Assistant.retrieve, Retriever.retrieve,
      ThresholdPolicy.candidates, ranking_eq]
    decide +kernel
  refine ⟨attempted, searched, course, follows, ?_, sink .working⟩
  rw [← emitted, follows.emitted]
  simp [a, assistant, world, World.ofDrivers, List.filterMap_map]

end Slow

end NoteAssistant
