import NoteAssistant.Reply.Processor

/-! # What the operations of a writer send

With someone to receive it, every operation comes down to a change of the writer and a
list of increments that are sent in a row (`Writer.sendAll`). Numbering is a matter of
`sendAll` alone; all that is said about the increments of an operation follows from its
equation here.
-/

namespace NoteAssistant

/-- Increments of one message, numbered from a place on. -/
def numbered (message : String) (place : Nat) : List Increment → List Choice
  | [] => []
  | i :: is => ⟨message, place, i⟩ :: numbered message (place + 1) is

def increments (sent : List Choice) : List Increment := sent.map (·.increment)

@[simp] theorem increments_nil : increments [] = [] := rfl

@[simp] theorem increments_append (sent more : List Choice) :
    increments (sent ++ more) = increments sent ++ increments more := List.map_append

@[simp] theorem increments_numbered (message : String) (place : Nat) (is : List Increment) :
    increments (numbered message place is) = is := by
  induction is generalizing place with
  | nil => rfl
  | cons i is ih => exact congrArg (i :: ·) (ih (place + 1))

theorem length_increments (sent : List Choice) : (increments sent).length = sent.length :=
  List.length_map _

theorem numbered_append (message : String) (place : Nat) (is js : List Increment) :
    numbered message place (is ++ js)
      = numbered message place is ++ numbered message (place + is.length) js := by
  induction is generalizing place with
  | nil => rfl
  | cons i is ih =>
      simp only [List.cons_append, numbered, ih, List.length_cons]
      rw [Nat.add_assoc, Nat.add_comm 1]

theorem map_sequence_numbered (message : String) (place : Nat) (is : List Increment) :
    (numbered message place is).map (·.sequence) = List.range' place is.length := by
  induction is generalizing place with
  | nil => rfl
  | cons i is ih => simp only [numbered, List.map_cons, ih, List.length_cons, List.range'_succ]

theorem message_of_mem_numbered {message : String} {place : Nat} {is : List Increment}
    {c : Choice} (h : c ∈ numbered message place is) : c.message = message := by
  induction is generalizing place with
  | nil => simp [numbered] at h
  | cons i is ih =>
      rcases List.mem_cons.mp h with rfl | later
      · rfl
      · exact ih later

/-- The text that an increment shows. -/
def Increment.shown : Increment → List Char
  | text s => s.toList
  | _ => []

/-- The text within increments. -/
def written (is : List Increment) : List Char := is.flatMap Increment.shown

@[simp] theorem written_nil : written [] = [] := rfl

@[simp] theorem written_cons (i : Increment) (is : List Increment) :
    written (i :: is) = i.shown ++ written is := rfl

@[simp] theorem written_append (is js : List Increment) :
    written (is ++ js) = written is ++ written js := List.flatMap_append

namespace Writer

/-- Sends increments in a row. -/
def sendAll (w : Writer) (is : List Increment) : Delivery :=
  ⟨{ w with sequence := w.sequence + is.length }, numbered w.message w.sequence is, true⟩

/-- The increments of a text: none for no text. -/
def textIncrements (text : List Char) : List Increment :=
  if text.isEmpty then [] else [.text (String.ofList text)]

def heldUsage (w : Writer) : List Increment :=
  (w.pendingUsage.map fun (model, usage) => .usage model usage).toList

@[simp] theorem written_textIncrements (text : List Char) :
    written (textIncrements text) = text := by
  cases text <;> simp [textIncrements, Increment.shown]

/-- The writer when all of its text has been sent. -/
def drained (w : Writer) : Writer := { w.closeThinking with buffer := [], scan := .idle }

/-- All text that has not been sent, with its block closed. -/
def gathered (w : Writer) : List Char := w.closeThinking.buffer ++ w.scan.held

theorem closeThinking_eq (w : Writer) :
    w.closeThinking =
      { w with
        buffer := w.closeThinking.buffer
        thinking := w.closeThinking.thinking } := by
  unfold closeThinking
  split <;> rfl

@[simp] theorem closeThinking_scan (w : Writer) : w.closeThinking.scan = w.scan := by
  rw [closeThinking_eq]

@[simp] theorem closeThinking_attached (w : Writer) :
    w.closeThinking.attached = w.attached := by
  rw [closeThinking_eq]

@[simp] theorem closeThinking_pendingUsage (w : Writer) :
    w.closeThinking.pendingUsage = w.pendingUsage := by
  rw [closeThinking_eq]

@[simp] theorem closeThinking_message (w : Writer) : w.closeThinking.message = w.message := by
  rw [closeThinking_eq]

@[simp] theorem closeThinking_sequence (w : Writer) :
    w.closeThinking.sequence = w.sequence := by
  rw [closeThinking_eq]

@[simp] theorem closeThinking_rules (w : Writer) : w.closeThinking.rules = w.rules := by
  rw [closeThinking_eq]

@[simp] theorem closeThinking_finished (w : Writer) :
    w.closeThinking.finished = w.finished := by
  rw [closeThinking_eq]

theorem sendAll_nil (w : Writer) : w.sendAll [] = w.pass := rfl

section Attached

variable {w : Writer}

theorem send_eq (there : w.attached = true) (i : Increment) : w.send i = w.sendAll [i] := by
  simp [send, sendAll, numbered, there]

theorem sendAll_andThen {is js : List Increment} {next : Writer → Delivery} {v : Writer}
    (same : v.message = w.message) (place : v.sequence = w.sequence + is.length)
    (goesOn : next { w with sequence := w.sequence + is.length } = v.sendAll js) :
    (w.sendAll is).andThen next = { v with sequence := w.sequence }.sendAll (is ++ js) := by
  simp only [Delivery.andThen, sendAll, if_true, goesOn, numbered_append, same, place,
    List.length_append, Nat.add_assoc]

theorem sendBuffer_eq (there : w.attached = true) :
    w.sendBuffer = { w with buffer := [] }.sendAll (textIncrements w.buffer) := by
  cases empty : w.buffer with
  | nil =>
      have same : { w with buffer := [] } = w := by rw [← empty]
      simp [sendBuffer, textIncrements, empty, same, sendAll_nil]
  | cons c cs =>
      simp only [sendBuffer, textIncrements, empty, List.isEmpty_cons, Bool.false_eq_true,
        if_false]
      exact send_eq (w := { w with buffer := [] }) there _

theorem flush_eq (there : w.attached = true) (open' : w.scan.isIdle = true) :
    w.flush = { w with buffer := [] }.sendAll (textIncrements w.buffer) := by
  rw [flush, if_pos open', sendBuffer_eq there]

theorem drain_eq (there : w.attached = true) :
    w.drain = w.drained.sendAll (textIncrements w.gathered) := by
  simp only [drain, closeThinking_scan]
  rw [sendBuffer_eq (by simpa using there)]
  rfl

theorem sendPending_eq (there : w.attached = true) :
    w.sendPending = { w with pendingUsage := none }.sendAll w.heldUsage := by
  unfold sendPending heldUsage
  split
  case h_1 model usage held =>
    rw [held]
    exact send_eq (w := { w with pendingUsage := none }) there _
  case h_2 nothing =>
    have same : { w with pendingUsage := none } = w := by rw [← nothing]
    rw [nothing, same]
    rfl

@[simp] theorem drained_attached (w : Writer) : w.drained.attached = w.attached := by
  simp [drained]

@[simp] theorem drained_pendingUsage (w : Writer) :
    w.drained.pendingUsage = w.pendingUsage := by
  simp [drained]

theorem finish_eq (there : w.attached = true) (reason : String) :
    w.finish reason =
      { w.drained with finished := true, pendingUsage := none }.sendAll
        (textIncrements w.gathered ++ ([Increment.finish reason] ++ w.heldUsage)) := by
  let place := w.drained.sequence + (textIncrements w.gathered).length
  let told := { w.drained with finished := true, sequence := place + 1 }
  have held : w.heldUsage = told.heldUsage := by simp [heldUsage, told]
  rw [finish, drain_eq there, held]
  refine sendAll_andThen (v := { told with pendingUsage := none, sequence := place }) rfl rfl ?_
  dsimp only
  rw [send_eq (by simpa using there)]
  exact sendAll_andThen (v := { told with pendingUsage := none }) rfl rfl
    (sendPending_eq (by simpa [told] using there))

theorem usage_eq (there : w.attached = true) (finished : w.finished = true) (model : String)
    (usage : TokenUsage) :
    w.usage model usage =
      w.drained.sendAll (textIncrements w.gathered ++ [.usage model usage]) := by
  let place := w.drained.sequence + (textIncrements w.gathered).length
  rw [Writer.usage, if_pos finished, drain_eq there]
  refine sendAll_andThen (v := { w.drained with sequence := place }) rfl rfl ?_
  exact send_eq (by simpa using there) _

theorem close_eq (there : w.attached = true) (terminal : Increment) :
    w.close terminal =
      { w.drained with pendingUsage := none }.sendAll
        (textIncrements w.gathered ++ (w.heldUsage ++ [terminal])) := by
  let place := w.drained.sequence + (textIncrements w.gathered).length
  let told := { w.drained with sequence := place }
  have held : w.heldUsage = told.heldUsage := by simp [heldUsage, told]
  rw [close, drain_eq there, held]
  refine sendAll_andThen (v := { told with pendingUsage := none }) rfl rfl ?_
  rw [sendPending_eq (by simpa using there)]
  exact sendAll_andThen (v := { told with
    pendingUsage := none
    sequence := place + told.heldUsage.length }) rfl rfl (send_eq (by simpa [told] using there) _)

/-- The writer after a part of a token. -/
def after (w : Writer) : Token.Part → Writer
  | .reasoning text => w.pushReasoning text
  | .content text => w.pushContent text
  | .finish _ => { w.drained with finished := true, pendingUsage := none }
  | .usage model usage =>
    if w.finished then w.drained else { w with pendingUsage := some (model, usage) }

/-- The increments that a part of a token brings about. -/
def told (w : Writer) : Token.Part → List Increment
  | .finish reason => textIncrements w.gathered ++ ([.finish reason] ++ w.heldUsage)
  | .usage model usage =>
    if w.finished then textIncrements w.gathered ++ [.usage model usage] else []
  | _ => []

theorem take_eq (there : w.attached = true) (part : Token.Part) :
    w.take part = (w.after part).sendAll (w.told part) := by
  cases part with
  | reasoning text => rfl
  | content text => rfl
  | finish reason => exact finish_eq there reason
  | usage model usage =>
      by_cases finished : w.finished = true
      · simp only [take, after, told, finished, if_true]
        exact usage_eq there finished model usage
      · simp only [take, after, told, finished, Writer.usage]
        rfl

end Attached

/-- What no operation changes, but for the number of the next increment. -/
structure SameOutlet (v w : Writer) : Prop where
  message : v.message = w.message
  rules : v.rules = w.rules
  attached : v.attached = w.attached
  sequence : v.sequence = w.sequence

theorem drained_sameOutlet (w : Writer) : w.drained.SameOutlet w := by
  constructor <;> simp [drained]

theorem after_sameOutlet (w : Writer) (part : Token.Part) : (w.after part).SameOutlet w := by
  cases part with
  | reasoning text =>
      simp only [after, pushReasoning]
      split <;> exact ⟨rfl, rfl, rfl, rfl⟩
  | content text => constructor <;> simp [after, pushContent]
  | finish reason => constructor <;> simp [after, drained]
  | usage model usage =>
      simp only [after]
      split
      case isTrue => exact w.drained_sameOutlet
      case isFalse => exact ⟨rfl, rfl, rfl, rfl⟩

end Writer

end NoteAssistant
