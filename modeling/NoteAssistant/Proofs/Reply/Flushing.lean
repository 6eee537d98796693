import NoteAssistant.Proofs.Reply.Detachment
import NoteAssistant.Proofs.Reply.Fidelity

/-! # What a scheduled flush sends

A flush either sends all text of what has been taken so far, but for the end of a block of
reasoning that may go on, or it changes nothing. No text that a reply sends ends within the
value of a placeholder (`Processor.flushes_whole`).
-/

namespace NoteAssistant

open Reference

namespace Reference

/-- Nothing but reasoning has come since the block was opened, so it may go on. -/
def isOpen (ps : List Piece) : Bool :=
  let inside := ps.dropWhile Piece.isCut
  !inside.isEmpty && inside.all Piece.isReasoning

/-- The block, which has come so far, is still open after these pieces. -/
def staysOpen : Thinking → List Piece → Bool
  | .none, ps => isOpen ps
  | .opened, ps => ps.all Piece.isReasoning
  | .closed, _ => false

section Open

variable (t : List Char) (ps : List Piece)

@[simp] theorem isOpen_nil : isOpen [] = false := rfl

@[simp] theorem isOpen_reasoning : isOpen (.reasoning t :: ps) = ps.all Piece.isReasoning := rfl

@[simp] theorem isOpen_content : isOpen (.content t :: ps) = false := rfl

@[simp] theorem isOpen_cut : isOpen (.cut :: ps) = isOpen ps := rfl

end Open

theorem restOfBlock_nil (t : Thinking) :
    restOfBlock t [] = if staysOpen t [] then Writer.thinkClose else [] := by
  cases t <;> simp [staysOpen]

end Reference

namespace Writer

variable (w : Writer)

theorem drained_staysOpen (ps : List Piece) :
    staysOpen w.drained.thinking ps = staysOpen w.thinking (.cut :: ps) := by
  cases thinking : w.thinking <;>
    simp [drained, closeThinking_thinking, thinking, staysOpen, Piece.isReasoning]

/-- A part of a token opens and closes the block as its pieces say. -/
theorem after_staysOpen (part : Token.Part) (parts : List Token.Part) :
    staysOpen (w.after part).thinking (Piece.ofParts (w.after part).finished parts) =
      staysOpen w.thinking (Piece.ofParts w.finished (part :: parts)) := by
  cases part with
  | reasoning text =>
      cases thinking : w.thinking <;>
        simp [after, pushReasoning, thinking, staysOpen, Piece.ofParts, Piece.isReasoning]
  | content text =>
      cases w.thinking <;>
        simp [after, pushContent, staysOpen, Piece.ofParts, Piece.isReasoning]
  | finish reason => exact w.drained_staysOpen (Piece.ofParts true parts)
  | usage model usage =>
      by_cases finished : w.finished = true
      · have cut := w.drained_staysOpen (Piece.ofParts true parts)
        have still : w.drained.finished = true := by simpa [drained] using finished
        simpa [after, Piece.ofParts, finished, still] using cut
      · simp [after, Piece.ofParts, finished]

end Writer

namespace Processor

theorem Moves.staysOpen {p q : Processor} {s : Signal} {is : List Increment}
    (move : Moves p s q is) (busy : ∀ e, q.stage ≠ .ended e) (parts : List Token.Part) :
    staysOpen q.writer.thinking (Piece.ofParts q.writer.finished parts) =
      staysOpen p.writer.thinking
        (Piece.ofParts p.writer.finished ((p.applies s).toList ++ parts)) := by
  cases move with
  | flushed | deferred | arrived | cancelled | expired => rfl
  | looked stage | took stage | stopped stage | completed stage | reported _ stage =>
      simp [applies, stage]
  | applied part parts' error stage =>
      simp only [applies, stage]
      exact p.writer.after_staysOpen part parts
  | closed e | abandoned e => exact absurd rfl (busy e)
  | rested e stage => exact absurd stage (busy e)

theorem Runs.staysOpen {p q : Processor} {signals : List Signal} {is : List Increment}
    (runs : Runs p signals q is) (busy : ∀ e, q.stage ≠ .ended e) (parts : List Token.Part) :
    staysOpen q.writer.thinking (Piece.ofParts q.writer.finished parts) =
      staysOpen p.writer.thinking
        (Piece.ofParts p.writer.finished (p.applied signals ++ parts)) := by
  induction runs with
  | nil p => rfl
  | @cons p _ s rest _ _ move runs ih =>
      have still : ∀ e, (p.step s).1.stage ≠ .ended e :=
        fun e ended => busy e (runs.stays_ended ended)
      rw [ih busy, move.staysOpen still, ← List.append_assoc]
      rfl

theorem applied_append (p : Processor) (signals more : List Signal) :
    p.applied (signals ++ more) = p.applied signals ++ (p.run signals).1.applied more := by
  induction signals generalizing p with
  | nil => rfl
  | cons s rest ih => simp only [List.cons_append, applied, run, ih, List.append_assoc]

theorem gone_of_detach (p : Processor) {signals : List Signal} (lost : .detach ∈ signals) :
    (p.run signals).1.writer.attached = false := by
  obtain ⟨before, rest, rfl, _⟩ := List.eq_append_cons_of_mem lost
  rw [run_append]
  exact (run_detached (p := ((p.run before).1.step .detach).1) rfl rest).1

/-- Up to the loss of the receiver a reply proceeds as if there were none, and after it
    nothing is sent. -/
theorem exists_received {p : Processor} (there : p.writer.attached = true)
    (signals : List Signal) :
    ∃ before rest is, signals = before ++ rest ∧ Runs p before (p.run before).1 is ∧
      increments (p.run signals).2 = is := by
  by_cases lost : .detach ∈ signals
  · obtain ⟨before, rest, rfl, kept⟩ := List.eq_append_cons_of_mem lost
    obtain ⟨is, runs, sent⟩ := run_runs there kept
    refine ⟨before, .detach :: rest, is, rfl, runs, ?_⟩
    have silent : ((p.run before).1.run (.detach :: rest)).2 = [] :=
      (run_detached (p := (p.run before).1.step .detach |>.1) rfl rest).2
    rw [run_append, silent, sent, List.append_nil, increments_numbered]
  · obtain ⟨is, runs, sent⟩ := run_runs there lost
    refine ⟨signals, [], is, by simp, runs, ?_⟩
    rw [sent, increments_numbered]

/-- All text of what has been taken has been sent, but for the end of a block that is still
    open. -/
def Complete (p : Processor) (r : MaskRules) (signals : List Signal) : Prop :=
  let ps := Piece.ofParts false (p.applied signals)
  written (increments (p.run signals).2) ++ (if isOpen ps then Writer.thinkClose else []) =
    block ps ++ answer r ps

/-- What holds of a flush after some signals. -/
structure FlushesWhole (p : Processor) (r : MaskRules) (signals : List Signal) : Prop where
  sending : ((p.run signals).1.step .tick).2 ≠ [] →
    (p.run signals).1.writer.scan = .idle ∧ p.Complete r (signals ++ [.tick])
  /-- Nothing but held text, an end or the loss of the receiver keeps a flush from sending. -/
  prompt : (p.run signals).1.writer.scan = .idle → (∀ e, (p.run signals).1.stage ≠ .ended e) →
    (p.run signals).1.writer.attached = true → p.Complete r (signals ++ [.tick])
  deferred : (p.run signals).1.writer.scan ≠ .idle →
    (p.run signals).1.step .tick = ((p.run signals).1, [])
  /-- Every text that is sent consists of whole units, so a value lies within one of them. -/
  undivided : ∃ groups : List (List (List Char)),
    texts (increments (p.run signals).2) = groups.map List.flatten ∧
      groups.flatten <+: units r (Piece.ofParts false (p.applied signals))

theorem tick_deferred {p : Processor} (held : p.writer.scan ≠ .idle) : p.tick = (p, []) := by
  have quiet : p.writer.flush = p.writer.pass := by
    unfold Writer.flush
    cases scan : p.writer.scan with
    | idle => exact absurd scan held
    | suspect | confirmed => rfl
  unfold tick
  split
  case h_1 => rfl
  case h_2 => rw [quiet]; rfl

theorem idle_of_sending {p : Processor} (sends : p.tick.2 ≠ []) :
    p.writer.scan = .idle ∧ (∀ e, p.stage ≠ .ended e) ∧ p.writer.attached = true := by
  have there : p.writer.attached = true := by
    cases attached : p.writer.attached with
    | true => rfl
    | false => exact absurd (step_detached attached .tick).2 sends
  obtain ⟨is, move, sent⟩ := tick_moves there
  generalize p.tick.1 = q at move
  cases move with
  | flushed busy idle => exact ⟨idle, busy, there⟩
  | deferred => exact absurd sent sends

/-- A flush while nothing is held back leaves nothing in the writer. -/
theorem tick_idle {p : Processor} (idle : p.writer.scan = .idle)
    (busy : ∀ e, p.stage ≠ .ended e) (there : p.writer.attached = true) :
    p.tick.1.writer.buffer = [] ∧ p.tick.1.writer.scan = .idle ∧ p.tick.1.stage = p.stage := by
  obtain ⟨is, move, _⟩ := tick_moves there
  generalize p.tick.1 = q at move
  cases move with
  | flushed => exact ⟨rfl, idle, rfl⟩
  | deferred held =>
      rcases held with held | ⟨e, ended⟩
      · exact absurd idle held
      · exact absurd ended (busy e)

/-- After a flush nothing is owed but the end of a block that is still open. -/
theorem owed_of_flushed {p : Processor} (busy : ∀ e, p.stage ≠ .ended e)
    (empty : p.writer.buffer = []) (idle : p.writer.scan = .idle) :
    p.owed [] = if staysOpen p.writer.thinking [] then Writer.thinkClose else [] := by
  rw [← restOfBlock_nil]
  cases stage : p.stage with
  | ended e => exact absurd stage (busy e)
  | watching | taking | closing =>
      simp [owed, stage, Writer.owed, empty, idle, MaskState.held, Piece.ofParts, answer, segments]

section Start

variable {message : String} {r : MaskRules} {limit : Duration} {signals : List Signal}

theorem start_owedUnits (parts : List Token.Part) :
    (start message r limit).owedUnits [] parts = units r (Piece.ofParts false parts) := by
  simp [start, owedUnits, Writer.owedUnits, Writer.new, restOfBlock, MaskState.held, units]

theorem start_owed (parts : List Token.Part) :
    (start message r limit).owed parts =
      block (Piece.ofParts false parts) ++ answer r (Piece.ofParts false parts) := by
  have empty : ([] : List (List Char)).flatten = (start message r limit).unsent := rfl
  rw [← flatten_owedUnits empty, start_owedUnits, flatten_units]

theorem run_complete (roomy : r.Roomy)
    (idle : ((start message r limit).run signals).1.writer.scan = .idle)
    (busy : ∀ e, ((start message r limit).run signals).1.stage ≠ .ended e)
    (there : ((start message r limit).run signals).1.writer.attached = true) :
    (start message r limit).Complete r (signals ++ [.tick]) := by
  let p := start message r limit
  have kept : .detach ∉ signals ++ [.tick] := by
    intro lost
    have lost : .detach ∈ signals := by simpa using lost
    rw [gone_of_detach _ lost] at there
    cases there
  obtain ⟨empty, idle, stage⟩ := tick_idle idle busy there
  obtain ⟨is, runs, sent⟩ := run_runs (p := p) rfl kept
  have last : (p.run (signals ++ [.tick])).1 = (p.run signals).1.tick.1 := by
    rw [run_append]
    rfl
  have still : ∀ e, (p.run signals).1.tick.1.stage ≠ .ended e := stage ▸ busy
  have balance := runs.balance roomy (.start message r limit)
  have opened := runs.staysOpen (last ▸ still) []
  rw [last, owed_of_flushed still empty idle, start_owed] at balance
  rw [last, List.append_nil] at opened
  have opened : staysOpen (p.run signals).1.tick.1.writer.thinking [] =
      isOpen (Piece.ofParts false (p.applied (signals ++ [.tick]))) := opened
  rw [opened] at balance
  unfold Complete
  rw [sent, increments_numbered]
  exact balance

theorem run_undivided (roomy : r.Roomy) :
    let p := start message r limit
    ∃ groups : List (List (List Char)),
      texts (increments (p.run signals).2) = groups.map List.flatten ∧
        groups.flatten <+: units r (Piece.ofParts false (p.applied signals)) := by
  intro p
  obtain ⟨before, rest, is, rfl, runs, sent⟩ := exists_received (p := p) rfl signals
  have empty : ([] : List (List Char)).flatten = p.unsent := rfl
  obtain ⟨us, _, delivers⟩ := runs.delivers roomy (.start message r limit) empty
  have settled : (∃ e, (p.run before).1.stage = .ended e) → (p.run before).1.applied rest = [] :=
    fun ⟨_, ended⟩ => applied_of_over ended rest
  obtain ⟨groups, shown, whole⟩ := delivers _ settled
  rw [start_owedUnits, ← applied_append] at whole
  exact ⟨groups, sent ▸ shown, _, whole⟩

end Start

/-- Whatever happens while a reply is made and in whatever order, flushes send all or nothing
    and cut no value of a placeholder in two. -/
theorem flushes_whole (message : String) (r : MaskRules) (limit : Duration)
    (signals : List Signal) (wide : 8 ≤ r.lookahead) (deep : r.lookahead < r.maxSpan) :
    (start message r limit).FlushesWhole r signals := by
  have roomy : r.Roomy := ⟨wide, deep⟩
  constructor
  case sending =>
    intro sends
    obtain ⟨idle, busy, there⟩ := idle_of_sending sends
    exact ⟨idle, run_complete roomy idle busy there⟩
  case prompt => exact run_complete roomy
  case deferred => exact tick_deferred
  case undivided => exact run_undivided roomy

/-- A tick while the block is open, one within a placeholder, and one after it. -/
theorem flushes_whole_interrupted :
    let r : MaskRules := ⟨.ofEntries [("u1", "Alice")], 10, 128⟩
    let p := start "m" r (.ofMillis 5)
    let signals : List Signal :=
      [.arrive (.token { Token.empty with reasoning := some "a\nb" }), .work, .work, .tick, .work,
        .arrive (.token (.ofContent "ask $hid")), .work, .work, .tick, .work,
        .arrive (.token (.ofContent "den[u1] now")), .work, .work]
    8 ≤ r.lookahead ∧ r.lookahead < r.maxSpan
      ∧ increments (p.run (signals ++ [.tick])).2 =
        [.text "<think>a<br/>b", .text "</think>ask Alice now"]
      ∧ p.FlushesWhole r signals := by
  intro r p signals
  have sent : increments (p.run (signals ++ [.tick])).2 =
      [.text "<think>a<br/>b", .text "</think>ask Alice now"] := by decide +kernel
  exact ⟨by decide, by decide, sent,
    flushes_whole "m" r (.ofMillis 5) signals (by decide) (by decide)⟩

end Processor

end NoteAssistant
