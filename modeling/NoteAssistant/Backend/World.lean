import NoteAssistant.Backend.Script
import NoteAssistant.Event

/-! # The world of a turn

What a turn acts upon: a clock, the drivers, the log of vector searches and the
events sent out. Nothing but a driver's delay and a time limit lets time pass.
-/

namespace NoteAssistant

/-- A vector search with the number of matches that was asked for. -/
structure Search where
  filter : VectorFilter
  topK : Nat
  deriving DecidableEq, Repr

structure World where
  /-- Milliseconds. -/
  clock : Nat
  /-- The drivers in the order of their registration. -/
  drivers : List ScriptedDriver
  searches : List Search
  /-- All events handed to the sink, taken by it or not. -/
  emitted : List Event

namespace World

/-- A world at the start of the clock. -/
def ofDrivers (drivers : List ScriptedDriver) : World := ⟨0, drivers, [], []⟩

end World

/-- A step of a turn: it acts upon the world and answers or fails. -/
abbrev Run := ExceptT Fault (StateM World)

namespace Run

/-- The answer of a step, or its fault. -/
def attempt {α : Type} (step : Run α) : Run (Except Fault α) :=
  fun w => let (answer, w) := step w; (.ok answer, w)

/-- Calls a driver that takes its time to answer. A call that is given up at its time limit has
    begun but is never answered: the driver's log leaves it out, and no scripted reply is used
    up by it. -/
def call {α : Type} (e : DriverEntry) (delay : ScriptedDriver → Nat) (limit : Option Nat)
    (ask : ScriptedDriver → Except Fault α × ScriptedDriver) : Run α := fun w =>
  match w.drivers[e.place]? with
  | none => (.error (.driverNotFound e.name), w)
  | some d =>
    let timeLeft := limit.all (delay d ≤ ·)
    if timeLeft then
      let (answer, d') := ask d
      (answer, { w with
        clock := w.clock + delay d
        drivers := w.drivers.set e.place d' })
    else
      let millis := limit.getD 0
      (.error (.timeout (.ofMillis millis)), { w with clock := w.clock + millis })

def complete (e : DriverEntry) (limit : Option Nat) (request : ChatRequest) :
    Run ChatResponse :=
  call e (·.chatDelay) limit (·.complete request)

def view (e : DriverEntry) (request : ChatRequest) : Run ChatResponse :=
  call e (fun _ => 0) none (·.complete request)

def openStream (e : DriverEntry) (request : ChatRequest) : Run (List StreamStep) :=
  call e (fun _ => 0) none (·.openStream request)

def embedQuery (e : DriverEntry) (limit : Option Nat) (texts : List String) :
    Run EmbeddingOutput :=
  call e (·.embedDelay) limit (·.embedQuery texts)

def embedDocuments (e : DriverEntry) (texts : List String) : Run EmbeddingOutput :=
  call e (fun _ => 0) none (·.embedDocuments texts)

def rerank (e : DriverEntry) (limit : Option Nat) (query : String) (docs : List RerankDoc) :
    Run RerankOutput :=
  call e (·.rerankDelay) limit (·.rerank query docs)

def read (e : DriverEntry) (url : String) : Run ReaderOutput :=
  call e (fun _ => 0) none (·.read url)

def noteSearch (s : Search) : Run Unit :=
  modify fun w => { w with searches := w.searches ++ [s] }

def emit (event : Event) : Run Unit :=
  modify fun w => { w with emitted := w.emitted ++ [event] }

/-- A fault if a moment has come. -/
def ensureBefore (moment : Option Nat) (e : Fault) : Run Unit := do
  if moment.any (· ≤ (← get).clock) then throw e

end Run

end NoteAssistant
