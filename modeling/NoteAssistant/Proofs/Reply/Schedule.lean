import NoteAssistant.Proofs.Reply.Envelope
import NoteAssistant.Reply.Schedule

/-! # Replies made from scripted streams

A scripted stream, a clock and a time limit never take the receiver away, and they always
bring a reply to its end. So the laws of all orders of signals hold of `reply`.
-/

namespace NoteAssistant

namespace Schedule

variable (t : Timing)

theorem Timing.detach_notMem_ticks (after upTo : Nat) : .detach ∉ t.ticks after upTo := by
  simp [Timing.ticks, List.mem_replicate]

theorem Timing.detach_notMem_halt : .detach ∉ t.halt := by
  simp only [Timing.halt, Timing.stopSignals, List.mem_append, not_or]
  refine ⟨⟨?_, ?_⟩, by simp⟩ <;> split <;> simp

theorem Timing.detach_notMem_final (now : Nat) : .detach ∉ t.final now := by
  rw [Timing.final, List.mem_append, not_or]
  exact ⟨t.detach_notMem_ticks now _, t.detach_notMem_halt⟩

theorem detach_notMem_handled (a : Arrival) : .detach ∉ handled a := by
  simp [handled, List.mem_replicate]

theorem detach_notMem_signals (now : Nat) (steps : List StreamStep) :
    .detach ∉ signals t now steps := by
  have halted (a : Arrival) : .detach ∉ .arrive a :: t.halt := by
    simpa using t.detach_notMem_halt
  induction steps generalizing now with
  | nil =>
      rw [signals]
      split
      case isTrue => exact detach_notMem_handled .ended
      case isFalse => exact halted .ended
  | cons step rest ih =>
      have goesOn (a : Arrival) : .detach ∉ handled a ++ signals t now rest := by
        rw [List.mem_append, not_or]
        exact ⟨detach_notMem_handled a, ih now⟩
      cases step with
      | hang => exact t.detach_notMem_final now
      | pause millis =>
          rw [signals]
          split
          case isTrue =>
            rw [List.mem_append, not_or]
            exact ⟨t.detach_notMem_ticks now _, ih (now + millis)⟩
          case isFalse => exact t.detach_notMem_final now
      | token token =>
          rw [signals]
          split
          case isTrue => exact goesOn (.token token)
          case isFalse => exact halted (.token token)
      | fail text =>
          rw [signals]
          split
          case isTrue => exact goesOn (.broken (.provider text))
          case isFalse => exact halted (.broken (.provider text))

end Schedule

namespace Processor

/-- A processor that looks out, has nothing waiting and no reason to end. -/
structure Ready (p : Processor) : Prop where
  there : p.writer.attached = true
  stage : p.stage = .watching
  waiting : p.waiting = []
  going : (p.cancelled || p.expired) = false

theorem Ready.start (message : String) (rules : MaskRules) (limit : Duration) :
    (start message rules limit).Ready := ⟨rfl, rfl, rfl, rfl⟩

section Over

variable {p : Processor}

theorem ended_of_work (there : p.writer.attached = true) {n : Nat} (due : p.due = some n)
    (rest : List Signal) :
    ∃ e, (p.run (List.replicate n .work ++ rest)).1.stage = .ended e := by
  have kept : .detach ∉ List.replicate n Signal.work := by simp [List.mem_replicate]
  obtain ⟨_, runs, _⟩ := run_runs there kept
  obtain ⟨m, left, le⟩ := runs.due_run due
  obtain rfl : m = 0 := by simpa using le
  obtain ⟨e, ended⟩ := ended_of_due left
  rw [run_append]
  exact ⟨e, run_of_over ended rest⟩

theorem Ready.ticks (h : p.Ready) (n : Nat) : (p.run (List.replicate n .tick)).1.Ready := by
  induction n generalizing p with
  | zero => exact h
  | succ n ih =>
      have same : (p.step .tick).1 = { p with writer := p.writer.flush.writer } := by
        simp [step, tick, h.stage]
      obtain ⟨_, move, _⟩ := step_moves (s := .tick) h.there (by simp)
      have next : (p.step .tick).1.Ready := by
        refine ⟨move.continues.attached.trans h.there, ?_, ?_, ?_⟩
        · rw [same, h.stage]
        · rw [same, h.waiting]
        · rw [same, h.going]
      exact ih next

/-- When its time has come a reply ends, whatever waits. -/
theorem halt_ended (there : p.writer.attached = true) (stage : p.stage = .watching)
    (t : Schedule.Timing) : ∃ e, (p.run t.halt).1.stage = .ended e := by
  have two (q : Processor) (still : q.writer.attached = true) (looks : q.stage = .watching)
      (stopped : q.cancelled = true ∨ q.expired = true) :
      ∃ e, (q.run [.work, .work]).1.stage = .ended e := by
    refine ended_of_work (n := 2) still ?_ []
    rw [due, looks]
    exact dueWatching_of_stopped stopped
  rw [Schedule.Timing.halt, run_append]
  unfold Schedule.Timing.stopSignals
  cases at_ : t.cancelAt with
  | none => exact two _ there stage (.inr rfl)
  | some c =>
      by_cases early : c ≤ t.limit
      · by_cases late : t.limit ≤ c
        · simp only [Option.any_some, Option.all_some, early, late, decide_true, if_true]
          exact two _ there stage (.inl rfl)
        · simp only [Option.any_some, Option.all_some, early, late, decide_true, decide_false,
            if_true, Bool.false_eq_true, if_false]
          exact two _ there stage (.inl rfl)
      · have late : t.limit ≤ c := by omega
        simp only [Option.any_some, Option.all_some, early, late, decide_true, decide_false,
          if_true, Bool.false_eq_true, if_false]
        exact two _ there stage (.inr rfl)

theorem run_parts {parts : List Token.Part} (there : p.writer.attached = true)
    (stage : p.stage = .taking parts none) :
    ∃ w : Writer, w.attached = true ∧
      (p.run (List.replicate parts.length .work)).1 =
        { p with writer := w, stage := .taking [] none } := by
  induction parts generalizing p with
  | nil => exact ⟨p.writer, there, by rw [← stage]; rfl⟩
  | cons part parts ih =>
      let w := ((p.writer.after part).sendAll (p.writer.told part)).writer
      have still : w.attached = true := (p.writer.after_sameOutlet part).attached.trans there
      have first : (p.step .work).1 = { p with writer := w, stage := .taking parts none } := by
        simp only [step, work, stage, Writer.take_eq there]
        rfl
      obtain ⟨w', there', rest⟩ :=
        ih (p := { p with writer := w, stage := .taking parts none }) still rfl
      refine ⟨w', there', ?_⟩
      rw [List.length_cons, List.replicate_succ]
      simp only [run, first, rest]

/-- A token without an error leaves the processor ready. -/
theorem Ready.token (h : p.Ready) {t : Token} (fine : t.error = none) :
    (p.run (Schedule.handled (.token t))).1.Ready := by
  obtain ⟨there, stage, waiting, going⟩ := h
  obtain ⟨uncancelled, early⟩ : p.cancelled = false ∧ p.expired = false := by simpa using going
  let q := { p with stage := .taking t.parts none }
  have taken : (p.run [.arrive (.token t), .work]).1 = q := by
    simp [run, step, work, watch, find, q, stage, waiting, there, uncancelled, early, fine]
  obtain ⟨w, still, parts⟩ := run_parts (p := q) there rfl
  have split : Schedule.handled (.token t) = [.arrive (.token t), .work]
      ++ (List.replicate t.parts.length .work ++ List.replicate 2 .work) := by
    rw [List.replicate_append_replicate]
    rfl
  have done : (p.run (Schedule.handled (.token t))).1 =
      { p with writer := w, stage := .watching } := by
    rw [split, run_append, run_append, taken, parts]
    simp [run, step, work, watch, find, q, waiting, still, uncancelled, early]
  rw [done]
  exact ⟨still, rfl, waiting, going⟩

/-- An arrival after which no other one is looked at ends the reply at once. -/
theorem Ready.last (h : p.Ready) {a : Arrival} (last : a.isLast = true) (rest : List Signal) :
    ∃ e, (p.run (Schedule.handled a ++ rest)).1.stage = .ended e := by
  obtain ⟨there, stage, waiting, going⟩ := h
  refine ended_of_work (p := (p.step (.arrive a)).1) there ?_ rest
  have now : (p.step (.arrive a)).1.due = dueFor [a] := by
    simp [step, due, stage, dueWatching, going, waiting]
  rw [now]
  cases a with
  | broken e | ended => rfl
  | token t => simp_all [dueFor, Arrival.effort, Arrival.isLast]

theorem Ready.handled (h : p.Ready) (a : Arrival) {rest : List Signal}
    (goesOn : ∀ q : Processor, q.Ready → ∃ e, (q.run rest).1.stage = .ended e) :
    ∃ e, (p.run (Schedule.handled a ++ rest)).1.stage = .ended e := by
  cases last : a.isLast with
  | true => exact h.last last rest
  | false =>
      cases a with
      | broken e | ended => cases last
      | token t =>
          rw [run_append]
          exact goesOn _ (h.token (by simpa [Arrival.isLast] using last))

theorem Ready.final (h : p.Ready) (t : Schedule.Timing) (now : Nat) :
    ∃ e, (p.run (t.final now)).1.stage = .ended e := by
  rw [Schedule.Timing.final, Schedule.Timing.ticks, run_append]
  have ready := h.ticks (t.lastTick / t.interval - now / t.interval)
  exact halt_ended ready.there ready.stage t

/-- A scripted stream brings a reply to its end. -/
theorem Ready.signals (h : p.Ready) (t : Schedule.Timing) (now : Nat) (steps : List StreamStep) :
    ∃ e, (p.run (Schedule.signals t now steps)).1.stage = .ended e := by
  induction steps generalizing p now with
  | nil =>
      rw [Schedule.signals]
      split
      case isTrue =>
        rw [← List.append_nil (Schedule.handled .ended)]
        exact h.last rfl []
      case isFalse => exact halt_ended (p := (p.step (.arrive .ended)).1) h.there h.stage t
  | cons step rest ih =>
      cases step with
      | hang => exact h.final t now
      | pause millis =>
          rw [Schedule.signals]
          split
          case isTrue =>
            rw [run_append]
            exact ih (h.ticks _) (now + millis)
          case isFalse => exact h.final t now
      | token token =>
          rw [Schedule.signals]
          split
          case isTrue => exact h.handled (.token token) fun q ready => ih ready now
          case isFalse => exact halt_ended (p := (p.step (.arrive _)).1) h.there h.stage t
      | fail text =>
          rw [Schedule.signals]
          split
          case isTrue => exact h.handled (.broken _) fun q ready => ih ready now
          case isFalse => exact halt_ended (p := (p.step (.arrive _)).1) h.there h.stage t

end Over

end Processor

/-- A reply that is made from a scripted stream ends with the increment that tells why. -/
theorem reply_ends (message : String) (steps : List StreamStep) (masks : MaskMap)
    (c : StreamConfig) (cancelAt : Option Nat) :
    ∃ (e : Ending) (body : List Increment) (terminal : Increment),
      e.terminal? = some terminal
        ∧ increments (reply message steps masks c cancelAt) = body ++ [terminal]
        ∧ ∀ i ∈ body, i.isTerminal = false := by
  let t : Schedule.Timing := ⟨c.flushIntervalMs, c.streamTimeoutSecs * 1000, cancelAt⟩
  let r : MaskRules := ⟨masks, c.maskLookahead, c.maskMaxSpan⟩
  have kept := Schedule.detach_notMem_signals t 0 steps
  have ready := Processor.Ready.start message r (.ofMillis t.limit)
  obtain ⟨e, ended⟩ := ready.signals t 0 steps
  have accounts := Processor.accounts_run message r (.ofMillis t.limit) kept
  rw [ended] at accounts
  exact ⟨e, accounts⟩

end NoteAssistant
