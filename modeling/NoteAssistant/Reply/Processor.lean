import NoteAssistant.Fault
import NoteAssistant.Chat
import NoteAssistant.Reply.Writer

/-! # Processing a token stream

A reply ends for the first cause that is observed: its stream is over or fails,
the model reports an error, it is cancelled, or it takes too long. Whoever
receives it then gets what has been gathered and one last increment.

The processor and the scheduled flushes share one writer, and each uses it for one
operation at a time. Whatever happens between two of these operations may happen
in any order.
-/

namespace NoteAssistant

/-- Why a reply ends. -/
inductive Ending where
  | done
  | failed (text : String)
  | cancelled
  | detached
  deriving DecidableEq, Repr

namespace Ending

/-- The last increment; none if there is no one to receive it. -/
def terminal? : Ending → Option Increment
  | done => some .done
  | failed text => some (.error text)
  | cancelled => some .cancelled
  | detached => none

end Ending

namespace Token

/-- A part of a token, which the writer takes in one operation. -/
inductive Part where
  | reasoning (text : String)
  | content (text : String)
  | finish (reason : String)
  | usage (model : String) (usage : TokenUsage)
  deriving DecidableEq, Repr

/-- A text that says something. -/
def present (text : Option String) : Option String := text.filter (· ≠ "")

/-- What a token says, in the order in which it is taken: its texts, its finish and
    its usage. -/
def parts (t : Token) : List Part :=
  ((present t.reasoning).map .reasoning).toList
    ++ ((present t.content).map .content).toList
    ++ (t.finishReason.map .finish).toList
    ++ (t.usage.map (.usage (t.model.getD ""))).toList

end Token

namespace Writer

def take (w : Writer) : Token.Part → Delivery
  | .reasoning text => (w.pushReasoning text).pass
  | .content text => (w.pushContent text).pass
  | .finish reason => w.finish reason
  | .usage model usage => w.usage model usage

end Writer

inductive Arrival where
  | token (t : Token)
  | broken (e : Fault)
  | ended
  deriving DecidableEq, Repr

/-- What happens while a reply is made. -/
inductive Signal where
  /-- Time for a flush. -/
  | tick
  | arrive (a : Arrival)
  | cancel
  | expire
  /-- No one receives the reply any more. -/
  | detach
  | work
  deriving DecidableEq, Repr

inductive Stage where
  /-- Looking out for what comes next. -/
  | watching
  /-- Taking a token, of which these parts are left, and then its error. -/
  | taking (parts : List Token.Part) (error : Option String)
  /-- Only the last increment is missing; a flush may still be under way. -/
  | closing (e : Ending)
  | ended (e : Ending)
  deriving DecidableEq, Repr

structure Processor where
  /-- The time it may take. -/
  limit : Duration
  writer : Writer
  stage : Stage
  cancelled : Bool
  expired : Bool
  /-- What the stream has yielded and no one has looked at. -/
  waiting : List Arrival
  deriving DecidableEq, Repr

namespace Processor

def start (message : String) (rules : MaskRules) (limit : Duration) : Processor where
  limit := limit
  writer := .new message rules
  stage := .watching
  cancelled := false
  expired := false
  waiting := []

/-- What a look at the world finds. -/
inductive Finding where
  | nothing
  | token (t : Token)
  | ending (e : Ending)
  deriving DecidableEq, Repr

/-- Of what can be found at one moment a cancellation comes first, then the loss of the
    receiver, then the time limit, and the stream comes last. -/
def find (p : Processor) : Finding :=
  if p.cancelled then .ending .cancelled
  else if !p.writer.attached then .ending .detached
  else if p.expired then .ending (.failed (Fault.timeout p.limit).message)
  else
    match p.waiting with
    | [] => .nothing
    | .token t :: _ => .token t
    | .broken e :: _ => .ending (.failed e.message)
    | .ended :: _ => .ending .done

def watch (p : Processor) : Processor :=
  match p.find with
  | .nothing => p
  | .token t => { p with stage := .taking t.parts t.error, waiting := p.waiting.tail }
  | .ending e => { p with stage := .closing e }

/-- The next operation of the processor: what it leaves and sends. -/
def work (p : Processor) : Processor × List Choice :=
  match p.stage with
  | .watching => (p.watch, [])
  | .taking (part :: parts) error =>
    let d := p.writer.take part
    let stage := if d.ok then .taking parts error else .closing .detached
    ({ p with writer := d.writer, stage := stage }, d.sent)
  | .taking [] none => ({ p with stage := .watching }, [])
  | .taking [] (some text) => ({ p with stage := .closing (.failed text) }, [])
  | .closing e =>
    match e.terminal? with
    | some terminal =>
      let d := p.writer.close terminal
      ({ p with writer := d.writer, stage := .ended e }, d.sent)
    | none => ({ p with stage := .ended e }, [])
  | .ended _ => (p, [])

/-- A scheduled flush. There is none after the last increment. -/
def tick (p : Processor) : Processor × List Choice :=
  match p.stage with
  | .ended _ => (p, [])
  | _ => ({ p with writer := p.writer.flush.writer }, p.writer.flush.sent)

def step (p : Processor) : Signal → Processor × List Choice
  | .tick => p.tick
  | .arrive a => ({ p with waiting := p.waiting ++ [a] }, [])
  | .cancel => ({ p with cancelled := true }, [])
  | .expire => ({ p with expired := true }, [])
  | .detach => ({ p with writer := p.writer.detach }, [])
  | .work => p.work

/-- What a sequence of signals leaves and sends. -/
def run (p : Processor) : List Signal → Processor × List Choice
  | [] => (p, [])
  | s :: rest =>
    let (q, sent) := p.step s
    let (r, more) := q.run rest
    (r, sent ++ more)

end Processor

end NoteAssistant
