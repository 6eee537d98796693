import NoteAssistant.Proofs.Backend.Alongside

/-! # Completion calls

A driver keeps a record of the requests it gets. Steps that leave it alone (`Run.Silent`) make
no completion call and open no stream; a call that is answered in time adds its request.
-/

namespace NoteAssistant

/-- A completion call to a driver. -/
structure Call where
  driver : DriverEntry
  limit : Option Nat
  request : ChatRequest

namespace World

/-- The world after some completion calls. -/
def after (calls : List Call) (w : World) : World :=
  calls.foldl (fun w c => (Run.complete c.driver c.limit c.request w).2) w

/-- The worlds are the same but for the events. -/
structure Told (w v : World) : Prop where
  clock : v.clock = w.clock
  drivers : v.drivers = w.drivers
  searches : v.searches = w.searches

theorem Told.requests {w v : World} (h : w.Told v) (place : Nat) :
    v.requests place = w.requests place := by
  rw [World.requests, h.drivers, World.requests]

/-- A driver that answers in time has got one request more. -/
theorem requests_after {w : World} {c : Call} {d : ScriptedDriver}
    (there : w.drivers[c.driver.place]? = some d)
    (timely : c.limit.all (d.chatDelay ≤ ·) = true) :
    (w.after [c]).requests c.driver.place = w.requests c.driver.place ++ [c.request] := by
  have asked : (d.complete c.request).2.log.requests = d.log.requests ++ [c.request] := by
    unfold ScriptedDriver.complete
    dsimp only [ScriptedDriver.record]
    split <;> rfl
  simp only [after, List.foldl_cons, List.foldl_nil, Run.complete, Run.call, there, timely]
  refine (requests_set there _ _).trans ?_
  rw [if_pos rfl, asked, World.requests, there]
  rfl

end World

namespace Run

variable {α β : Type}

/-- What a step adds to the requests of each driver. -/
def Asks (may : List ChatRequest → Prop) (step : Run α) : Prop :=
  ∀ w place, ∃ more, (step w).2.requests place = w.requests place ++ more ∧ may more

/-- A step in which no driver gets a request. -/
def Silent (step : Run α) : Prop := ∀ w place, (step w).2.requests place = w.requests place

namespace Silent

theorem pure (a : α) : Silent (pure a) := fun _ _ => rfl

theorem throw (e : Fault) : Silent (throw e : Run α) := fun _ _ => rfl

theorem lift (answer : Except Fault α) : Silent (Router.lift answer) := by
  cases answer with
  | ok a => exact pure a
  | error e => exact throw e

theorem bind {step : Run α} {next : α → Run β} (first : Silent step)
    (rest : ∀ a, Silent (next a)) : Silent (step >>= next) := by
  intro w place
  rw [bind_eq, ← first w place]
  rcases step w with ⟨e | a, v⟩
  · rfl
  · exact rest a v place

theorem attempt {step : Run α} (h : Silent step) : Silent (attempt step) := h

theorem noteSearch (s : Search) : Silent (noteSearch s) := fun _ _ => rfl

theorem emit (event : Event) : Silent (emit event) := fun _ _ => rfl

theorem ensureBefore (moment : Option Nat) (e : Fault) : Silent (ensureBefore moment e) := by
  intro w place
  rw [ensureBefore_eq]
  split <;> rfl

theorem get : Silent (get : Run World) := fun _ _ => rfl

theorem of_asks {step : Run α} (h : Asks (· = []) step) : Silent step := by
  intro w place
  obtain ⟨more, added, rfl⟩ := h w place
  rw [added, List.append_nil]

end Silent

namespace Asks

variable {may : List ChatRequest → Prop} {step : Run α} {next : α → Run β}

theorem after_silent (none : may []) (first : Silent step) (rest : ∀ a, Asks may (next a)) :
    Asks may (step >>= next) := by
  intro w place
  rw [bind_eq, ← first w place]
  rcases step w with ⟨e | a, v⟩
  · exact ⟨[], (List.append_nil _).symm, none⟩
  · exact rest a v place

theorem before_silent (first : Asks may step) (rest : ∀ a, Silent (next a)) :
    Asks may (step >>= next) := by
  intro w place
  obtain ⟨more, added, fine⟩ := first w place
  refine ⟨more, ?_, fine⟩
  rw [bind_eq, ← added]
  rcases step w with ⟨e | a, v⟩
  · rfl
  · exact rest a v place

/-- A call adds what the driver notes, if it is reached. -/
theorem call (none : may []) (e : DriverEntry) (delay : ScriptedDriver → Nat)
    (limit : Option Nat) {ask : ScriptedDriver → Except Fault α × ScriptedDriver}
    (asks : ∀ d, ∃ more, (ask d).2.log.requests = d.log.requests ++ more ∧ may more) :
    Asks may (call e delay limit ask) := by
  intro w place
  have same : ∃ more, w.requests place = w.requests place ++ more ∧ may more :=
    ⟨[], (List.append_nil _).symm, none⟩
  unfold Run.call
  cases there : w.drivers[e.place]? with
  | none => exact same
  | some d =>
      dsimp only
      split
      case isFalse => exact same
      case isTrue =>
        obtain ⟨more, noted, fine⟩ := asks d
        by_cases here : e.place = place
        · refine ⟨more, (World.requests_set there _ _).trans ?_, fine⟩
          rw [if_pos here, noted, ← here, World.requests, there]
          rfl
        · refine ⟨[], (World.requests_set there _ _).trans ?_, none⟩
          rw [if_neg here, List.append_nil]

end Asks

theorem Silent.call (e : DriverEntry) (delay : ScriptedDriver → Nat) (limit : Option Nat)
    {ask : ScriptedDriver → Except Fault α × ScriptedDriver}
    (quiet : ∀ d, (ask d).2.log.requests = d.log.requests) :
    Silent (call e delay limit ask) :=
  .of_asks (.call (by rfl) e delay limit fun d => ⟨[], by rw [quiet, List.append_nil], rfl⟩)

end Run

namespace ScriptedDriver

theorem requests_embedQuery (texts : List String) (d : ScriptedDriver) :
    (d.embedQuery texts).2.log.requests = d.log.requests := by
  unfold embedQuery embedDocuments
  split
  case h_1 => rfl
  case h_2 =>
    dsimp only
    split <;> rfl

theorem requests_rerank (query : String) (docs : List RerankDoc) (d : ScriptedDriver) :
    (d.rerank query docs).2.log.requests = d.log.requests := by
  unfold rerank
  dsimp only
  split <;> rfl

/-- A driver that opens a stream notes the request; if it fails it notes nothing. -/
theorem requests_openStream (request : ChatRequest) (d : ScriptedDriver) :
    ∃ more, (d.openStream request).2.log.requests = d.log.requests ++ more
      ∧ (more = [] ∨ more = [request]) := by
  unfold openStream
  split
  case h_1 => exact ⟨[], (List.append_nil _).symm, .inl rfl⟩
  case h_2 =>
    dsimp only [record]
    split
    case h_1 => exact ⟨[request], rfl, .inr rfl⟩
    case h_2 => exact ⟨[request], rfl, .inr rfl⟩

end ScriptedDriver

end NoteAssistant
