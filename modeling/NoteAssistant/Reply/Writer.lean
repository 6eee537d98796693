import NoteAssistant.Event
import NoteAssistant.Mask.Scanner

/-! # Writing a reply

The writer gathers the pieces of one reply and sends them as numbered increments.
Reasoning stands in a block of its own in front of the answer; placeholders are
replaced and never cut in two by a scheduled flush.
-/

namespace NoteAssistant

/-- How far the block of reasoning has come. -/
inductive Thinking where
  | none
  | opened
  /-- The answer has begun, and reasoning is dropped. -/
  | closed
  deriving DecidableEq, Repr

structure Writer where
  message : String
  rules : MaskRules
  /-- Text that has not been sent. -/
  buffer : List Char
  scan : MaskState
  thinking : Thinking
  /-- The number of the next increment. -/
  sequence : Nat
  finished : Bool
  /-- Usage that is sent after the finish. -/
  pendingUsage : Option (String × TokenUsage)
  /-- Someone receives what is sent. -/
  attached : Bool
  deriving DecidableEq, Repr

/-- What an operation of the writer leaves and sends. It fails if something had to
    be sent and no one was there to receive it. -/
structure Delivery where
  writer : Writer
  sent : List Choice
  ok : Bool
  deriving DecidableEq, Repr

namespace Delivery

/-- Goes on with an operation, unless there was a failure. -/
def andThen (d : Delivery) (next : Writer → Delivery) : Delivery :=
  if d.ok then
    let e := next d.writer
    ⟨e.writer, d.sent ++ e.sent, e.ok⟩
  else d

end Delivery

namespace Writer

def thinkOpen : List Char := "<think>".toList
def thinkClose : List Char := "</think>".toList

/-- What stands for a line break within reasoning. -/
def lineBreak : List Char := "<br/>".toList

def new (message : String) (rules : MaskRules) : Writer where
  message := message
  rules := rules
  buffer := []
  scan := .idle
  thinking := .none
  sequence := 0
  finished := false
  pendingUsage := none
  attached := true

def pass (w : Writer) : Delivery := ⟨w, [], true⟩

/-- Adds reasoning to its block, which is opened for the first piece. -/
def pushReasoning (w : Writer) (text : String) : Writer :=
  let text := Text.replaceAll ['\n'] lineBreak text.toList
  match w.thinking with
  | .closed => w
  | .opened => { w with buffer := w.buffer ++ text }
  | .none => { w with buffer := w.buffer ++ thinkOpen ++ text, thinking := .opened }

/-- Closes the block of reasoning if it is open. -/
def closeThinking (w : Writer) : Writer :=
  match w.thinking with
  | .opened => { w with buffer := w.buffer ++ thinkClose, thinking := .closed }
  | _ => w

def pushContent (w : Writer) (text : String) : Writer :=
  let w := w.closeThinking
  let (scan, released) := w.rules.push w.scan text.toList
  { w with buffer := w.buffer ++ released, scan := scan, thinking := .closed }

def send (w : Writer) (i : Increment) : Delivery :=
  let next := { w with sequence := w.sequence + 1 }
  if w.attached then ⟨next, [⟨w.message, w.sequence, i⟩], true⟩ else ⟨next, [], false⟩

/-- Sends the gathered text, if there is any. -/
def sendBuffer (w : Writer) : Delivery :=
  if w.buffer.isEmpty then w.pass
  else { w with buffer := [] }.send (.text (String.ofList w.buffer))

/-- Sends all text, also what was held back. -/
def drain (w : Writer) : Delivery :=
  let w := w.closeThinking
  { w with buffer := w.buffer ++ w.scan.held, scan := .idle }.sendBuffer

/-- The flush at a tick; none while something is held back. -/
def flush (w : Writer) : Delivery := if w.scan.isIdle then w.sendBuffer else w.pass

/-- Sends the usage that has been waiting. -/
def sendPending (w : Writer) : Delivery :=
  match w.pendingUsage with
  | some (model, usage) => { w with pendingUsage := none }.send (.usage model usage)
  | none => w.pass

/-- Sends all text, the reason for which the answer ends, and the usage so far. -/
def finish (w : Writer) (reason : String) : Delivery :=
  w.drain.andThen fun w =>
    ({ w with finished := true }.send (.finish reason)).andThen sendPending

/-- Sends usage after a finish; before it usage waits, the latest one only. -/
def usage (w : Writer) (model : String) (usage : TokenUsage) : Delivery :=
  if w.finished then w.drain.andThen (·.send (.usage model usage))
  else { w with pendingUsage := some (model, usage) }.pass

/-- Sends all text, the usage that has been waiting, and the last increment. -/
def close (w : Writer) (terminal : Increment) : Delivery :=
  w.drain.andThen fun w => w.sendPending.andThen (·.send terminal)

def detach (w : Writer) : Writer := { w with attached := false }

end Writer

end NoteAssistant
