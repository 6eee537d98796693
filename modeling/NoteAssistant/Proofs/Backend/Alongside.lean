import NoteAssistant.Proofs.Backend.Steps

/-! # Worlds that go alongside each other

A failed attempt to enhance a query takes time, a chat reply and a request. `Alongside` says
of two worlds that go on from before and after such an attempt that nothing else tells them
apart, and `Run.InStep` that steps answer the same in both and keep it so. Every step of a
turn does, since none but the attempt looks at chat replies or at the requests so far.
-/

namespace NoteAssistant

namespace ScriptedDriver

/-- A driver without its chat replies and the requests it has got. -/
def unasked (d : ScriptedDriver) : ScriptedDriver :=
  { d with chat := [], log := { d.log with requests := [] } }

end ScriptedDriver

namespace World

/-- The requests that the driver at a place has got. -/
def requests (w : World) (place : Nat) : List ChatRequest :=
  (w.drivers[place]?.map (·.log.requests)).getD []

/-- What has happened since `v` in one world has happened since `w` in another one, and the
    worlds are the same but for the time, chat replies, and the requests and events before. -/
structure Alongside (v w u u' : World) : Prop where
  clock : u.clock + w.clock = u'.clock + v.clock
  searches : u.searches = u'.searches
  drivers : u.drivers.map (·.unasked) = u'.drivers.map (·.unasked)
  requests : ∀ place, ∃ more, u.requests place = v.requests place ++ more
    ∧ u'.requests place = w.requests place ++ more
  emitted : ∃ more, u.emitted = v.emitted ++ more ∧ u'.emitted = w.emitted ++ more

/-- Two worlds that are the same but for time, chat replies, requests and events. -/
theorem Alongside.start {v w : World} (searches : v.searches = w.searches)
    (drivers : v.drivers.map (·.unasked) = w.drivers.map (·.unasked)) :
    Alongside v w v w where
  clock := Nat.add_comm _ _
  searches := searches
  drivers := drivers
  requests := fun _ => ⟨[], by simp⟩
  emitted := ⟨[], by simp⟩

theorem requests_set {w : World} {place : Nat} {d : ScriptedDriver}
    (there : w.drivers[place]? = some d) (x : ScriptedDriver) (i : Nat) :
    { w with drivers := w.drivers.set place x }.requests i =
      if place = i then x.log.requests else w.requests i := by
  obtain ⟨inside, _⟩ := List.getElem?_eq_some_iff.mp there
  simp only [requests, List.getElem?_set, if_pos inside]
  split <;> rfl

end World

namespace ScriptedDriver

/-- A way to ask a driver that looks at neither its chat replies nor the requests so far. -/
structure Heedless {α : Type} (ask : ScriptedDriver → Except Fault α × ScriptedDriver) :
    Prop where
  answer : ∀ d, (ask d).1 = (ask d.unasked).1
  driver : ∀ d, (ask d).2.unasked = (ask d.unasked).2.unasked
  requests : ∀ d, (ask d).2.log.requests = d.log.requests ++ (ask d.unasked).2.log.requests

theorem embedDocuments_heedless (texts : List String) :
    Heedless (·.embedDocuments texts) := by
  constructor
  all_goals
    intro d
    simp only [embedDocuments, unasked]
    split <;> simp [embedded, model]

/-- A failure that is laid down for all calls is heedless, too. -/
theorem Heedless.unless {α : Type} {failure : ScriptedDriver → Option Fault}
    {ask : ScriptedDriver → Except Fault α × ScriptedDriver} (h : Heedless ask)
    (steady : ∀ d, failure d = failure d.unasked) :
    Heedless fun d => match failure d with
      | some e => (.error e, d)
      | none => ask d := by
  constructor
  case answer =>
    intro d
    simp only [← steady d]
    cases failure d with
    | some e => rfl
    | none => exact h.answer d
  case driver =>
    intro d
    simp only [← steady d]
    cases failure d with
    | some e => rfl
    | none => exact h.driver d
  case requests =>
    intro d
    simp only [← steady d]
    cases failure d with
    | some e => exact (List.append_nil _).symm
    | none => exact h.requests d

theorem embedQuery_heedless (texts : List String) : Heedless (·.embedQuery texts) := by
  have unfolded : (fun d : ScriptedDriver => d.embedQuery texts) = fun d =>
      match d.embedFailure.map Fault.embedding with
      | some e => (.error e, d)
      | none => d.embedDocuments texts := by
    funext d
    unfold embedQuery
    cases d.embedFailure <;> rfl
  rw [unfolded]
  exact (embedDocuments_heedless texts).unless fun _ => rfl

theorem rerank_heedless (query : String) (docs : List RerankDoc) :
    Heedless (·.rerank query docs) := by
  constructor
  all_goals
    intro d
    simp only [rerank, unasked]
    split <;> simp [model]

/-- The stream of a driver that lets one be opened. -/
def nextStream (d : ScriptedDriver) (request : ChatRequest) :
    Except Fault (List StreamStep) × ScriptedDriver :=
  let d := d.record request
  match d.streams with
  | [] => (.ok d.defaultStream, d)
  | steps :: rest => (.ok steps, { d with streams := rest })

theorem nextStream_heedless (request : ChatRequest) : Heedless (·.nextStream request) := by
  constructor
  all_goals
    intro d
    simp only [nextStream, unasked, record]
    split <;> simp [defaultStream, model]

theorem openStream_heedless (request : ChatRequest) : Heedless (·.openStream request) := by
  have unfolded : (fun d : ScriptedDriver => d.openStream request) = fun d =>
      match d.openFailure.map Fault.provider with
      | some e => (.error e, d)
      | none => d.nextStream request := by
    funext d
    unfold openStream
    cases d.openFailure <;> rfl
  rw [unfolded]
  exact (nextStream_heedless request).unless fun _ => rfl

end ScriptedDriver

namespace World.Alongside

variable {v w u u' : World}

/-- Time goes by in both worlds. -/
theorem passed (beside : Alongside v w u u') (millis : Nat) :
    Alongside v w { u with clock := u.clock + millis }
      { u' with clock := u'.clock + millis } := by
  have time := beside.clock
  refine ⟨?_, beside.searches, beside.drivers, beside.requests, beside.emitted⟩
  dsimp only
  omega

/-- A driver is asked in both worlds. -/
theorem asked {α : Type} {place : Nat} {d d' : ScriptedDriver}
    {ask : ScriptedDriver → Except Fault α × ScriptedDriver} (beside : Alongside v w u u')
    (there : u.drivers[place]? = some d) (there' : u'.drivers[place]? = some d')
    (same : d.unasked = d'.unasked) (heedless : ScriptedDriver.Heedless ask) :
    Alongside v w { u with drivers := u.drivers.set place (ask d).2 }
      { u' with drivers := u'.drivers.set place (ask d').2 } := by
  constructor
  case clock => exact beside.clock
  case searches => exact beside.searches
  case emitted => exact beside.emitted
  case drivers =>
    simp only [List.map_set, beside.drivers]
    rw [heedless.driver d, heedless.driver d', same]
  case requests =>
    intro i
    obtain ⟨more, left, right⟩ := beside.requests i
    rw [requests_set there, requests_set there']
    split
    case isFalse => exact ⟨more, left, right⟩
    case isTrue here =>
      subst here
      have left : d.log.requests = v.requests place ++ more := by
        simpa [World.requests, there] using left
      have right : d'.log.requests = w.requests place ++ more := by
        simpa [World.requests, there'] using right
      refine ⟨more ++ (ask d.unasked).2.log.requests, ?_, ?_⟩
      · rw [heedless.requests, left, List.append_assoc]
      · rw [heedless.requests, right, same, List.append_assoc]

end World.Alongside

namespace Run

open World

/-- Steps that answer the same in worlds alongside each other, and keep them so. -/
def InStep {α : Type} (v w : World) (step step' : Run α) : Prop :=
  ∀ u u', Alongside v w u u' →
    (step u).1 = (step' u').1 ∧ Alongside v w (step u).2 (step' u').2

namespace InStep

variable {α β : Type} {v w : World}

theorem pure (a : α) : InStep v w (pure a) (pure a) := fun _ _ beside => ⟨rfl, beside⟩

theorem throw (e : Fault) : InStep v w (throw e : Run α) (throw e) :=
  fun _ _ beside => ⟨rfl, beside⟩

theorem lift (answer : Except Fault α) :
    InStep v w (Router.lift answer) (Router.lift answer) := by
  cases answer with
  | ok a => exact pure a
  | error e => exact throw e

theorem bind {step step' : Run α} {next next' : α → Run β} (first : InStep v w step step')
    (rest : ∀ a, InStep v w (next a) (next' a)) :
    InStep v w (step >>= next) (step' >>= next') := by
  intro u u' beside
  obtain ⟨same, beside⟩ := first u u' beside
  rw [bind_eq, bind_eq]
  rcases done : step u with ⟨answer, x⟩
  rcases done' : step' u' with ⟨answer', x'⟩
  rw [done, done'] at same beside
  obtain rfl : answer = answer' := same
  cases answer with
  | ok a => exact rest a x x' beside
  | error e => exact ⟨rfl, beside⟩

theorem attempt {step step' : Run α} (h : InStep v w step step') :
    InStep v w (attempt step) (attempt step') := by
  intro u u' beside
  obtain ⟨same, beside⟩ := h u u' beside
  exact ⟨congrArg Except.ok same, beside⟩

theorem noteSearch (s : Search) : InStep v w (noteSearch s) (noteSearch s) := by
  intro u u' beside
  exact ⟨rfl, { beside with searches := congrArg (· ++ [s]) beside.searches }⟩

theorem emit (event : Event) : InStep v w (emit event) (emit event) := by
  intro u u' beside
  obtain ⟨more, left, right⟩ := beside.emitted
  refine ⟨rfl, { beside with emitted := ⟨more ++ [event], ?_, ?_⟩ }⟩
  · exact (congrArg (· ++ [event]) left).trans (List.append_assoc ..)
  · exact (congrArg (· ++ [event]) right).trans (List.append_assoc ..)

/-- A moment has come in one world if it has in the other, where it is due as much earlier as
    that world lags behind. -/
theorem ensureBefore (later : w.clock ≤ v.clock) (moment : Option Nat) (e : Fault) :
    InStep v w (ensureBefore moment e)
      (ensureBefore (moment.map (· - (v.clock - w.clock))) e) := by
  intro u u' beside
  have time := beside.clock
  have come : moment.any (· ≤ u.clock) =
      (moment.map (· - (v.clock - w.clock))).any (· ≤ u'.clock) := by
    cases moment with
    | none => rfl
    | some c =>
        simp only [Option.map_some, Option.any_some, decide_eq_decide]
        omega
  rw [ensureBefore_eq, ensureBefore_eq, come]
  split
  case isTrue => exact ⟨rfl, beside⟩
  case isFalse => exact ⟨rfl, beside⟩

theorem call (e : DriverEntry) {delay : ScriptedDriver → Nat} (limit : Option Nat)
    {ask : ScriptedDriver → Except Fault α × ScriptedDriver}
    (steady : ∀ d, delay d = delay d.unasked) (heedless : ScriptedDriver.Heedless ask) :
    InStep v w (call e delay limit ask) (call e delay limit ask) := by
  intro u u' beside
  have found := congrArg (·[e.place]?) beside.drivers
  simp only [List.getElem?_map] at found
  unfold Run.call
  cases there : u.drivers[e.place]? with
  | none =>
      have there' : u'.drivers[e.place]? = none := by simpa [there] using found.symm
      rw [there']
      exact ⟨rfl, beside⟩
  | some d =>
      obtain ⟨d', there', same⟩ : ∃ d', u'.drivers[e.place]? = some d' ∧ d'.unasked = d.unasked := by
        simpa [there] using found.symm
      have delayed : delay d = delay d' := by rw [steady d, steady d', same]
      simp only [there', delayed]
      split
      case isTrue =>
        refine ⟨by rw [heedless.answer d, heedless.answer d', same], ?_⟩
        exact (beside.asked there there' same.symm heedless).passed (delay d')
      case isFalse => exact ⟨rfl, beside.passed _⟩

end InStep

end Run

end NoteAssistant
