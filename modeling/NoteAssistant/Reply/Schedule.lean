import NoteAssistant.Backend.Script
import NoteAssistant.Config.Model
import NoteAssistant.Reply.Processor

/-! # The order of signals

A scripted stream, a clock and a time limit bring about a sequence of signals. The
processor gets to work at once whenever something has happened. A tick comes before
a cancellation of the same moment and after the time limit.
-/

namespace NoteAssistant

/-- Operations of the processor that are enough to deal with an arrival. -/
def Arrival.effort : Arrival → Nat
  | token t => t.parts.length + 3
  | _ => 2

namespace Schedule

/-- The times, in milliseconds from the start of a reply, that order its signals. -/
structure Timing where
  /-- The distance of ticks. -/
  interval : Nat
  limit : Nat
  cancelAt : Option Nat
  deriving DecidableEq, Repr

namespace Timing

/-- The moment at which the reply ends in any case. -/
def stop (t : Timing) : Nat := t.cancelAt.elim t.limit (min · t.limit)

def stopSignals (t : Timing) : List Signal :=
  (if t.cancelAt.any (· ≤ t.limit) then [.cancel] else [])
    ++ (if t.cancelAt.all (t.limit ≤ ·) then [.expire] else [])

/-- The end of a reply at that moment. -/
def halt (t : Timing) : List Signal := t.stopSignals ++ [.work, .work]

/-- The moment of the last possible tick. -/
def lastTick (t : Timing) : Nat :=
  if t.cancelAt.any (· < t.limit) then t.stop else t.stop - 1

/-- The ticks after one moment and up to another one. -/
def ticks (t : Timing) (after upTo : Nat) : List Signal :=
  List.replicate (upTo / t.interval - after / t.interval) .tick

/-- The last signals, when nothing else has arrived since a moment. -/
def final (t : Timing) (now : Nat) : List Signal := t.ticks now t.lastTick ++ t.halt

end Timing

/-- An arrival, and the work it makes. -/
def handled (a : Arrival) : List Signal := .arrive a :: List.replicate a.effort .work

/-- The signals of a stream whose next step begins at `now`. -/
def signals (t : Timing) (now : Nat) : List StreamStep → List Signal
  | [] => if now < t.stop then handled .ended else .arrive .ended :: t.halt
  | .hang :: _ => t.final now
  | .pause millis :: steps =>
    if now + millis < t.stop then t.ticks now (now + millis) ++ signals t (now + millis) steps
    else t.final now
  | .token token :: steps =>
    if now < t.stop then handled (.token token) ++ signals t now steps
    else .arrive (.token token) :: t.halt
  | .fail text :: steps =>
    if now < t.stop then handled (.broken (.provider text)) ++ signals t now steps
    else .arrive (.broken (.provider text)) :: t.halt

end Schedule

/-- The reply to a message, made from a stream of tokens. -/
def reply (message : String) (steps : List StreamStep) (masks : MaskMap) (c : StreamConfig)
    (cancelAt : Option Nat) : List Choice :=
  let timing : Schedule.Timing := ⟨c.flushIntervalMs, c.streamTimeoutSecs * 1000, cancelAt⟩
  let start := Processor.start message ⟨masks, c.maskLookahead, c.maskMaxSpan⟩
    (.ofMillis timing.limit)
  (start.run (Schedule.signals timing 0 steps)).2

end NoteAssistant
