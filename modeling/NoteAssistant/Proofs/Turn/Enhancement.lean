import NoteAssistant.Proofs.Backend.Calls
import NoteAssistant.Proofs.Config.Acceptance
import NoteAssistant.Proofs.Routing.Building
import NoteAssistant.Proofs.Turn.Degradation

/-! # When a query is enhanced

A turn asks for other wordings of its query when the session has messages enough before it. It
looks at the last messages only, and a query that is recorded already takes up a place among
them: a window that is as small as the minimum does not hold enough then
(`Assistant.Crowded`). Apart from this case the number of messages says whether a turn makes one
completion call or none (`Assistant.enhances_iff`).
-/

namespace NoteAssistant

/-- A store that holds these messages of a session. -/
def HistoryStore.Holds (h : HistoryStore) (session : String) (stored : List HistoryMessage) :
    Prop :=
  ∀ n, h.recent session n = .ok (lastItems n stored)

theorem HistoryStore.ofMessages_holds (ms : List HistoryMessage) (session : String) :
    (ofMessages ms).Holds session (ms.filter (·.session = session)) := fun _ => rfl

namespace Assistant

/-! ## Messages before a query -/

/-- The last message is the query. -/
def Recorded (query : String) (history : List HistoryMessage) : Prop :=
  ∃ m, history.getLast? = some m ∧ m.role = .user ∧ trimmed m.content = trimmed query

section History

variable {query : String} {history : List HistoryMessage}

theorem length_of_recorded (h : Recorded query history) :
    (priorMessages query history).length + 1 = history.length := by
  obtain ⟨m, last, user, same⟩ := h
  obtain ⟨before, rfl⟩ := List.getLast?_eq_some_iff.mp last
  simp [priorMessages, user, same]

theorem length_of_unrecorded (h : ¬Recorded query history) :
    (priorMessages query history).length = history.length := by
  unfold priorMessages
  split
  case h_2 => rfl
  case h_1 m last =>
    rw [if_neg]
    intro both
    simp only [Bool.and_eq_true, decide_eq_true_eq] at both
    exact h ⟨m, last, both⟩

theorem length_lastItems {α : Type} (n : Nat) (items : List α) :
    (lastItems n items).length = min n items.length := by
  rw [lastItems, List.length_drop]
  omega

/-- A window that holds anything ends as the whole does. -/
theorem recorded_lastItems {n : Nat} (room : 0 < n) :
    Recorded query (lastItems n history) ↔ Recorded query history := by
  have last : (lastItems n history).getLast? = history.getLast? := by
    rw [lastItems, List.getLast?_drop]
    split
    case isFalse => rfl
    case isTrue short =>
      have empty : history.length = 0 := by omega
      rw [List.length_eq_zero_iff.mp empty]
      rfl
  rw [Recorded, last, Recorded]

/-- The query takes up a place of the window that is needed for the minimum of messages. -/
def Crowded (rag : RagConfig) (query : String) (stored : List HistoryMessage) : Prop :=
  Recorded query stored ∧ 0 < rag.enhanceMinHistory ∧ rag.historyWindow = rag.enhanceMinHistory

/-- The window holds enough messages before the query if there are enough, unless it is
    crowded. -/
theorem enough_iff {rag : RagConfig} {stored : List HistoryMessage}
    (window : rag.enhanceMinHistory ≤ rag.historyWindow) :
    rag.enhanceMinHistory ≤ (priorMessages query (lastItems rag.historyWindow stored)).length ↔
      rag.enhanceMinHistory ≤ (priorMessages query stored).length
        ∧ ¬Crowded rag query stored := by
  have size := length_lastItems rag.historyWindow stored
  unfold Crowded
  by_cases none : rag.historyWindow = 0
  · have least : rag.enhanceMinHistory = 0 := by omega
    simp [least]
  · have room : 0 < rag.historyWindow := by omega
    by_cases recorded : Recorded query stored
    · have whole := length_of_recorded recorded
      have part := length_of_recorded ((recorded_lastItems room).mpr recorded)
      simp only [recorded, true_and]
      omega
    · have whole := length_of_unrecorded recorded
      have part := length_of_unrecorded (recorded ∘ (recorded_lastItems room).mp)
      simp only [recorded, false_and, not_false_eq_true, and_true]
      omega

theorem loadHistory_of_holds {a : Assistant} {q : TurnRequest} {stored : List HistoryMessage}
    (holds : a.history.Holds q.session stored) :
    a.loadHistory q = priorMessages q.query (lastItems a.rag.historyWindow stored) := by
  rw [loadHistory, holds]

end History

end Assistant

/-! ## What follows an enhancement -/

namespace Retriever

theorem embed_silent (r : Retriever) (query : String) : Run.Silent (r.embed query) := by
  refine .bind (.attempt (.bind (.lift _) fun driver => ?_)) fun answer => ?_
  · exact .call driver _ _ (ScriptedDriver.requests_embedQuery [query])
  · cases answer with
    | ok output => exact .pure output
    | error e => exact .throw _

theorem rerank_silent (r : Retriever) (query : String) (docs : List EvidenceDoc) :
    Run.Silent (r.rerank query docs) := by
  unfold rerank
  split
  case isTrue => exact .pure _
  case isFalse =>
    cases r.router.reranker with
    | error e => exact .pure _
    | ok driver =>
        refine .bind (.attempt (.call driver _ _ (ScriptedDriver.requests_rerank _ _))) fun a => ?_
        cases a with
        | ok output => exact .pure _
        | error e => exact .pure _

/-- Retrieval asks no model to complete anything. -/
theorem retrieve_silent (r : Retriever) (q : RetrievalRequest) : Run.Silent (r.retrieve q) := by
  refine .bind (r.embed_silent q.query) fun output => .bind (.lift _) fun vector => ?_
  refine .bind (.bind (.noteSearch _) fun _ => .lift _) fun found => ?_
  refine .bind (.lift _) fun docs => .bind (r.rerank_silent _ docs) fun reranking => ?_
  exact .bind (.lift _) fun pinned => .pure _

end Retriever

namespace Assistant

variable (a : Assistant) (q : TurnRequest) (cancelAt : Option Nat)

theorem tip_silent (tool : String) (status : ToolStatus) (detail : String) :
    Run.Silent (a.tip q tool status detail) := by
  rw [tip_eq]
  split
  case isTrue => exact .emit _
  case isFalse => exact .pure _

theorem retrieve_silent (enhanced : EnhancedQuery) : Run.Silent (a.retrieve q enhanced) := by
  refine .bind (a.tip_silent q _ _ _) fun _ => ?_
  refine .bind (.attempt (a.retriever.retrieve_silent _)) fun answer => ?_
  cases answer with
  | error e => exact .bind (a.tip_silent q _ _ _) fun _ => .throw e
  | ok outcome =>
      refine .bind (a.tip_silent q _ _ _) fun _ => ?_
      split
      case isTrue => exact .bind (a.tip_silent q _ _ _) fun _ => .pure outcome
      case isFalse => exact .pure outcome

/-- No request, or the one for the reply. -/
def AtMostReply (more : List ChatRequest) : Prop :=
  more = [] ∨ ∃ docs, more = [a.request q (a.loadHistory q) (q.lang.getD a.router.lang) docs]

theorem openStream_asks (docs : List EvidenceDoc) :
    Run.Asks (a.AtMostReply q) (a.router.openStream
      (a.request q (a.loadHistory q) (q.lang.getD a.router.lang) docs)) := by
  refine .after_silent (.inl rfl) (.lift _) fun driver => ?_
  refine .call (.inl rfl) driver _ _ fun d => ?_
  obtain ⟨more, noted, fine⟩ := d.requests_openStream _
  exact ⟨more, noted, fine.imp id fun one => ⟨docs, one⟩⟩

/-- From an enhanced query on a turn asks for nothing but the reply. -/
theorem proceed_asks (enhanced : EnhancedQuery) :
    Run.Asks (a.AtMostReply q) (a.proceed q cancelAt enhanced) := by
  have none : a.AtMostReply q [] := .inl rfl
  refine .after_silent none (.ensureBefore _ _) fun _ => ?_
  refine .after_silent none (a.retrieve_silent q enhanced) fun outcome => ?_
  refine .after_silent none (.ensureBefore _ _) fun _ => ?_
  exact (a.openStream_asks q outcome.docs).before_silent fun steps => .bind .get fun _ => .pure _

/-- The completion calls of a turn: these are made before the retrieval, and none after. -/
structure Completes (calls : List Call) (w : World) : Prop where
  /-- The turn goes on from the world that the calls leave, when at most the sink has been
      told about them. -/
  before : ∃ enhanced v, a.prepare q cancelAt w = a.proceed q cancelAt enhanced v
    ∧ (w.after calls).Told v
  after : ∀ place, ∃ more,
    (a.turn q cancelAt w).2.requests place = (w.after calls).requests place ++ more
      ∧ a.AtMostReply q more

/-- The call by which a turn has its query enhanced. -/
def enhancement (driver : DriverEntry) : Call where
  driver := driver
  limit := some a.rag.enhanceTimeoutMs
  request := Enhancement.request a.router a.rag q.query (a.loadHistory q)
    (q.lang.getD a.router.lang) q.now

section Calls

variable {a q cancelAt} {w v : World} {driver : DriverEntry}

theorem Completes.of_prepare {enhanced : EnhancedQuery} {calls : List Call}
    (h : a.prepare q cancelAt w = a.proceed q cancelAt enhanced v)
    (told : (w.after calls).Told v) : a.Completes q cancelAt calls w := by
  refine ⟨⟨enhanced, v, h, told⟩, fun place => ?_⟩
  rw [turn_eq, Run.map_eq, h, ← told.requests place]
  exact a.proceed_asks q cancelAt enhanced v place

theorem completes_of_short (short : (a.loadHistory q).length < a.rag.enhanceMinHistory) :
    a.Completes q cancelAt [] w :=
  .of_prepare (prepare_of_short short) ⟨rfl, rfl, rfl⟩

/-- What a turn makes of an attempt is a query, and at most the sink is told. -/
theorem settle_told (answer : Except Fault EnhancedQuery) (w : World) :
    ∃ enhanced v, a.settle q answer w = (.ok enhanced, v) ∧ w.Told v := by
  cases answer with
  | ok enhanced => exact ⟨enhanced, w, rfl, rfl, rfl, rfl⟩
  | error e =>
      unfold settle
      rw [tip_eq]
      split
      case isTrue => exact ⟨_, _, rfl, rfl, rfl, rfl⟩
      case isFalse => exact ⟨_, _, rfl, rfl, rfl, rfl⟩

/-- An attempt with history enough is one call. -/
theorem attempt_calls (enough : a.rag.enhanceMinHistory ≤ (a.loadHistory q).length)
    (there : a.router.enhancer = .ok driver) :
    (a.attempt q w).2 = w.after [a.enhancement q driver] := by
  unfold attempt Enhancement.enhance
  rw [if_neg (Nat.not_lt.mpr enough), there, Run.bind_of_ok (Run.lift_eq_ok.mpr ⟨rfl, rfl⟩),
    Run.bind_eq]
  simp only [World.after, List.foldl_cons, List.foldl_nil, enhancement]
  rcases Run.complete driver (some a.rag.enhanceTimeoutMs) _ w with ⟨e | reply, u⟩
  · rfl
  · dsimp only
    cases Enhancement.alternatives reply.content q.query <;> rfl

theorem completes_of_enough (begun : cancelAt.any (· ≤ w.clock) = false)
    (enough : a.rag.enhanceMinHistory ≤ (a.loadHistory q).length)
    (there : a.router.enhancer = .ok driver) :
    a.Completes q cancelAt [a.enhancement q driver] w := by
  obtain ⟨enhanced, v, settled, told⟩ := settle_told (a := a) (q := q) (a.attempt q w).1
    (a.attempt q w).2
  rw [attempt_calls enough there] at settled told
  have goes : a.prepare q cancelAt w = a.proceed q cancelAt enhanced v := by
    rw [prepare_eq, Run.bind_of_ok (ensureBefore_of_later begun _),
      Run.bind_of_ok (Run.attempt_eq _ _), attempt_calls enough there, Run.bind_of_ok settled]
  exact .of_prepare goes told

end Calls

end Assistant

namespace Router

variable {profiles : List DriverProfile} {usage : List (String × String)}
  {prompts : PromptAssembler} {lang : String} {r : Router}

/-- A router that has been built has one of its drivers enhance queries. -/
theorem enhancer_of_build (built : build profiles usage prompts lang = .ok r) :
    ∃ driver p, r.enhancer = .ok driver ∧ profiles[driver.place]? = some p := by
  obtain ⟨buildable, rfl⟩ := build_eq_ok.mp built
  have chats : Capability.ofUsageKey UsageKey.enhanceQuery ∈ [.chat, .enhance] := by
    decide +kernel
  obtain ⟨driver, there⟩ := (routing_routes prompts lang buildable).chats _ chats
  obtain ⟨e, served, able⟩ := Fault.bind_eq_ok.mp there
  split at able
  case isFalse => cases able
  case isTrue =>
    cases able
    obtain ⟨i, p, at_, rfl⟩ := Registry.mem_registered.mp
      (able_of_entryFor prompts lang buildable served).1
    exact ⟨_, p, there, at_⟩

end Router

namespace Assistant

/-- A turn that is not cancelled makes one completion call if its session has messages enough
    before the query and the window is not crowded, and none otherwise. -/
theorem enhances_iff {c : Config} (a : Assistant) (q : TurnRequest) (cancelAt : Option Nat)
    (w : World) {stored : List HistoryMessage} {usage : List (String × String)}
    {prompts : PromptAssembler} {lang : String} (valid : c.isValid = true) (rag : a.rag = c.rag)
    (built : Router.build (w.drivers.map (·.profile)) usage prompts lang = .ok a.router)
    (holds : a.history.Holds q.session stored)
    (begun : cancelAt.any (· ≤ w.clock) = false) :
    ∃ driver d, a.router.enhancer = .ok driver ∧ w.drivers[driver.place]? = some d ∧
      let call := a.enhancement q driver
      (a.rag.enhanceMinHistory ≤ (priorMessages q.query stored).length
          ∧ ¬Crowded a.rag q.query stored →
        a.Completes q cancelAt [call] w
          ∧ (d.chatDelay ≤ a.rag.enhanceTimeoutMs →
            (w.after [call]).requests driver.place = w.requests driver.place ++ [call.request]))
      ∧ (¬(a.rag.enhanceMinHistory ≤ (priorMessages q.query stored).length
          ∧ ¬Crowded a.rag q.query stored) → a.Completes q cancelAt [] w) := by
  obtain ⟨driver, p, there, profile⟩ := Router.enhancer_of_build built
  rw [List.getElem?_map] at profile
  obtain ⟨d, here, _⟩ := Option.map_eq_some_iff.mp profile
  have window : a.rag.enhanceMinHistory ≤ a.rag.historyWindow :=
    rag ▸ Config.window_of_isValid valid
  rw [← enough_iff window, ← loadHistory_of_holds holds]
  refine ⟨driver, d, there, here, ?_, ?_⟩
  · intro enough
    refine ⟨completes_of_enough begun enough there, fun timely => ?_⟩
    exact World.requests_after here (by simpa [enhancement] using timely)
  · intro short
    exact completes_of_short (Nat.lt_of_not_le short)

end Assistant

namespace Recalled

/-- A driver with a name and capabilities only. -/
def driver : ScriptedDriver :=
  ⟨"d", "en", [.chat, .embedding], [], [], [], [], 0, 0, 0, none, none, ⟨[], [], []⟩⟩

def world : World := .ofDrivers [driver]

/-- A session in which the query is recorded already. -/
def stored : List HistoryMessage :=
  [(.user, "one"), (.assistant, "two"), (.user, "and now?")].map fun (role, content) =>
    ⟨"1", "t", role, content, ⟨⟨2024, 1, 1⟩, 0, 0⟩⟩

def asking : TurnRequest :=
  ⟨"s", "u", "t", "and now?", [], "m", none, none, ⟨⟨2024, 1, 1⟩, 0, 0⟩⟩

/-- A configuration with a window of this size, and two messages as the minimum. -/
def config (window : Nat) : Config := { rag := { historyWindow := window } }

def entry : DriverEntry := ⟨"d", "en", [.chat, .embedding], 0⟩

def assistant (window : Nat) : Assistant where
  retriever := {
    router := ⟨⟨[entry]⟩, [], ⟨"", []⟩, "en"⟩
    vectors := .ofMatches []
    knowledge := .ofRecords []
    pins := none
    key := none
    rag := (config window).rag }
  history := .ofMessages stored
  watched := false
  stream := {}

theorem built (window : Nat) :
    Router.build (world.drivers.map (·.profile)) [] ⟨"", []⟩ "en" =
      .ok (assistant window).router := by
  have same : Router.build [driver.profile] [] ⟨"", []⟩ "en" =
      .ok ⟨⟨[entry]⟩, [], ⟨"", []⟩, "en"⟩ := by
    decide +kernel
  exact same

theorem holds (window : Nat) : (assistant window).history.Holds asking.session stored := by
  have own : stored.filter (·.session = asking.session) = stored := by decide +kernel
  have held := HistoryStore.ofMessages_holds stored asking.session
  rwa [own] at held

end Recalled

namespace Assistant

open Recalled

/-- A window that has room for the query beside the minimum of messages. -/
theorem enhances_iff_recorded :
    (config 3).isValid = true
      ∧ (assistant 3).rag.enhanceMinHistory ≤ (priorMessages asking.query stored).length
      ∧ ¬Crowded (assistant 3).rag asking.query stored
      ∧ (assistant 3).Completes asking none [(assistant 3).enhancement asking entry] world
      ∧ (world.after [(assistant 3).enhancement asking entry]).requests 0 =
        [((assistant 3).enhancement asking entry).request] := by
  have valid : (config 3).isValid = true := by decide +kernel
  have enough : (assistant 3).rag.enhanceMinHistory ≤
      (priorMessages asking.query stored).length := by decide +kernel
  have roomy : ¬Crowded (assistant 3).rag asking.query stored := by
    rintro ⟨_, _, same⟩
    cases same
  obtain ⟨e, d, there, here, one, _⟩ := enhances_iff (assistant 3) asking none world valid rfl
    (built 3) (holds 3) rfl
  have first : (assistant 3).router.enhancer = .ok entry := by decide +kernel
  cases first.symm.trans there
  cases here
  obtain ⟨completes, noted⟩ := one ⟨enough, roomy⟩
  exact ⟨valid, enough, roomy, completes, noted (Nat.zero_le _)⟩

/-- Two messages before a recorded query are not enough for a minimum of two if the window is
    as small. -/
theorem enhances_overlooked :
    ¬ ∀ (c : Config) (a : Assistant) (q : TurnRequest) (cancelAt : Option Nat) (w : World)
        (stored : List HistoryMessage) (usage : List (String × String))
        (prompts : PromptAssembler) (lang : String), c.isValid = true → a.rag = c.rag →
      Router.build (w.drivers.map (·.profile)) usage prompts lang = .ok a.router →
      a.history.Holds q.session stored → cancelAt.any (· ≤ w.clock) = false →
      a.rag.enhanceMinHistory ≤ (priorMessages q.query stored).length →
      ∃ driver, a.router.enhancer = .ok driver
        ∧ a.Completes q cancelAt [a.enhancement q driver] w := by
  intro always
  obtain ⟨e, there, completes⟩ := always (config 2) (assistant 2) asking none world stored [] _ _
    (by decide +kernel) rfl (built 2) (holds 2) rfl (by decide +kernel)
  have first : (assistant 2).router.enhancer = .ok entry := by decide +kernel
  cases first.symm.trans there
  obtain ⟨more, asked, _⟩ := completes.after 0
  have noted : (world.after [(assistant 2).enhancement asking entry]).requests 0 =
      [((assistant 2).enhancement asking entry).request] :=
    World.requests_after (d := driver) rfl rfl
  -- The one request of the turn is for the reply: it has the message before the query, too.
  have sizes : (((assistant 2).turn asking none world).2.requests 0).map (·.messages.length) =
      [2] := by
    simp only [turn, retrieve, Retriever.retrieve, ThresholdPolicy.candidates, ranking_eq]
    decide +kernel
  rw [asked, noted] at sizes
  cases sizes

end Assistant

end NoteAssistant
