import NoteAssistant.Proofs.Reply.Delivery

/-! # How a reply with a receiver proceeds

`Processor.Moves` lists everything that one signal can do to a reply whose receiver is
there, and `Processor.Runs` chains such steps. The laws of whole replies are inductions
over these two. `Processor.Finds` lists what a processor that looks out can find.
-/

namespace NoteAssistant.Processor

/-- What is found, with all that comes first and is not there. -/
inductive Finds (p : Processor) : Finding → Prop where
  | cancelled (told : p.cancelled = true) : Finds p (.ending .cancelled)
  | detached (untold : p.cancelled = false) (gone : p.writer.attached = false) :
      Finds p (.ending .detached)
  | late (untold : p.cancelled = false) (there : p.writer.attached = true)
      (passed : p.expired = true) : Finds p (.ending (.failed (Fault.timeout p.limit).message))
  | nothing (untold : p.cancelled = false) (there : p.writer.attached = true)
      (inTime : p.expired = false) (idle : p.waiting = []) : Finds p .nothing
  | token (untold : p.cancelled = false) (there : p.writer.attached = true)
      (inTime : p.expired = false) (t : Token) (rest : List Arrival)
      (next : p.waiting = .token t :: rest) : Finds p (.token t)
  | broken (untold : p.cancelled = false) (there : p.writer.attached = true)
      (inTime : p.expired = false) (e : Fault) (rest : List Arrival)
      (next : p.waiting = .broken e :: rest) : Finds p (.ending (.failed e.message))
  | ended (untold : p.cancelled = false) (there : p.writer.attached = true)
      (inTime : p.expired = false) (rest : List Arrival) (next : p.waiting = .ended :: rest) :
      Finds p (.ending .done)

theorem find_finds (p : Processor) : Finds p p.find := by
  unfold find
  split
  case isTrue told => exact .cancelled told
  case isFalse untold =>
    rw [Bool.not_eq_true] at untold
    split
    case isTrue gone => exact .detached untold (by simpa using gone)
    case isFalse there =>
      rw [Bool.not_eq_true, Bool.not_eq_false'] at there
      split
      case isTrue passed => exact .late untold there passed
      case isFalse inTime =>
        rw [Bool.not_eq_true] at inTime
        split
        case h_1 idle => exact .nothing untold there inTime idle
        case h_2 t rest next => exact .token untold there inTime t rest next
        case h_3 e rest next => exact .broken untold there inTime e rest next
        case h_4 rest next => exact .ended untold there inTime rest next

theorem find_eq_iff {p : Processor} {f : Finding} : p.find = f ↔ Finds p f := by
  constructor
  · rintro rfl
    exact p.find_finds
  · intro finds
    cases finds <;> simp [find, *]

/-- The effect of a signal other than the loss of the receiver: what it leaves, and the
    increments it brings about. -/
inductive Moves (p : Processor) : Signal → Processor → List Increment → Prop where
  | flushed (busy : ∀ e, p.stage ≠ .ended e) (idle : p.writer.scan = .idle) :
      Moves p .tick
        { p with
          writer := ({ p.writer with buffer := [] }.sendAll
            (Writer.textIncrements p.writer.buffer)).writer }
        (Writer.textIncrements p.writer.buffer)
  /-- A tick does nothing while text is held back, and after the end. -/
  | deferred (held : p.writer.scan ≠ .idle ∨ ∃ e, p.stage = .ended e) : Moves p .tick p []
  | arrived (a : Arrival) :
      Moves p (.arrive a) { p with waiting := p.waiting ++ [a] } []
  | cancelled : Moves p .cancel { p with cancelled := true } []
  | expired : Moves p .expire { p with expired := true } []
  | looked (stage : p.stage = .watching) (found : p.find = .nothing) : Moves p .work p []
  | took (stage : p.stage = .watching) (t : Token) (found : p.find = .token t) :
      Moves p .work { p with stage := .taking t.parts t.error, waiting := p.waiting.tail } []
  | stopped (stage : p.stage = .watching) (e : Ending) (found : p.find = .ending e) :
      Moves p .work { p with stage := .closing e } []
  | applied (part : Token.Part) (parts : List Token.Part) (error : Option String)
      (stage : p.stage = .taking (part :: parts) error) :
      Moves p .work
        { p with
          writer := ((p.writer.after part).sendAll (p.writer.told part)).writer
          stage := .taking parts error }
        (p.writer.told part)
  | completed (stage : p.stage = .taking [] none) :
      Moves p .work { p with stage := .watching } []
  | reported (text : String) (stage : p.stage = .taking [] (some text)) :
      Moves p .work { p with stage := .closing (.failed text) } []
  | closed (e : Ending) (terminal : Increment) (stage : p.stage = .closing e)
      (last : e.terminal? = some terminal) :
      Moves p .work
        { p with
          writer := ({ p.writer.drained with pendingUsage := none }.sendAll
            (Writer.textIncrements p.writer.gathered
              ++ (p.writer.heldUsage ++ [terminal]))).writer
          stage := .ended e }
        (Writer.textIncrements p.writer.gathered ++ (p.writer.heldUsage ++ [terminal]))
  | abandoned (e : Ending) (stage : p.stage = .closing e) (silent : e.terminal? = none) :
      Moves p .work { p with stage := .ended e } []
  | rested (e : Ending) (stage : p.stage = .ended e) : Moves p .work p []

inductive Runs : Processor → List Signal → Processor → List Increment → Prop where
  | nil (p : Processor) : Runs p [] p []
  | cons {p r : Processor} {s : Signal} {rest : List Signal} {is js : List Increment} :
      Moves p s (p.step s).1 is → Runs (p.step s).1 rest r js → Runs p (s :: rest) r (is ++ js)

section Step

variable {p : Processor}

theorem tick_moves (there : p.writer.attached = true) :
    ∃ is, Moves p .tick p.tick.1 is
      ∧ p.tick.2 = numbered p.writer.message p.writer.sequence is := by
  by_cases ended : ∃ e, p.stage = .ended e
  · obtain ⟨e, stage⟩ := ended
    simp only [tick, stage]
    exact ⟨[], .deferred (.inr ⟨e, stage⟩), rfl⟩
  · have busy (e : Ending) : p.stage ≠ .ended e := fun stage => ended ⟨e, stage⟩
    have flushes : p.tick =
        ({ p with writer := p.writer.flush.writer }, p.writer.flush.sent) := by
      unfold tick
      split
      case h_1 e stage => exact absurd stage (busy e)
      case h_2 => rfl
    rw [flushes]
    cases scan : p.writer.scan with
    | idle =>
        rw [Writer.flush_eq there (by rw [scan]; rfl)]
        exact ⟨_, .flushed busy scan, rfl⟩
    | suspect held | confirmed held =>
        have quiet : p.writer.flush = p.writer.pass := by
          simp [Writer.flush, scan, MaskState.isIdle]
        rw [quiet]
        exact ⟨[], .deferred (.inl (by simp [scan])), rfl⟩

theorem work_moves (there : p.writer.attached = true) :
    ∃ is, Moves p .work p.work.1 is
      ∧ p.work.2 = numbered p.writer.message p.writer.sequence is := by
  cases stage : p.stage with
  | watching =>
      simp only [work, stage, watch]
      split
      case h_1 found => exact ⟨[], .looked stage found, rfl⟩
      case h_2 t found => exact ⟨[], .took stage t found, rfl⟩
      case h_3 e found => exact ⟨[], .stopped stage e found, rfl⟩
  | taking parts error =>
      cases parts with
      | cons part parts =>
          obtain ⟨message, _, _, sequence⟩ := p.writer.after_sameOutlet part
          simp only [work, stage, Writer.take_eq there]
          refine ⟨_, .applied part parts error stage, ?_⟩
          rw [← message, ← sequence]
          rfl
      | nil =>
          cases error with
          | none =>
              simp only [work, stage]
              exact ⟨[], .completed stage, rfl⟩
          | some text =>
              simp only [work, stage]
              exact ⟨[], .reported text stage, rfl⟩
  | closing e =>
      cases last : e.terminal? with
      | none =>
          simp only [work, stage, last]
          exact ⟨[], .abandoned e stage last, rfl⟩
      | some terminal =>
          obtain ⟨message, _, _, sequence⟩ := p.writer.drained_sameOutlet
          simp only [work, stage, last, Writer.close_eq there]
          refine ⟨_, .closed e terminal stage last, ?_⟩
          rw [← message, ← sequence]
          rfl
  | ended e =>
      simp only [work, stage]
      exact ⟨[], .rested e stage, rfl⟩

theorem step_moves (there : p.writer.attached = true) {s : Signal} (kept : s ≠ .detach) :
    ∃ is, Moves p s (p.step s).1 is
      ∧ (p.step s).2 = numbered p.writer.message p.writer.sequence is := by
  cases s with
  | tick => exact tick_moves there
  | arrive a => exact ⟨[], .arrived a, rfl⟩
  | cancel => exact ⟨[], .cancelled, rfl⟩
  | expire => exact ⟨[], .expired, rfl⟩
  | detach => exact absurd rfl kept
  | work => exact work_moves there

end Step

/-- What no step changes, but for the number of the next increment. -/
structure Continues (p q : Processor) (is : List Increment) : Prop where
  limit : q.limit = p.limit
  message : q.writer.message = p.writer.message
  rules : q.writer.rules = p.writer.rules
  attached : q.writer.attached = p.writer.attached
  sequence : q.writer.sequence = p.writer.sequence + is.length

theorem Moves.continues {p q : Processor} {s : Signal} {is : List Increment}
    (h : Moves p s q is) : Continues p q is := by
  cases h with
  | flushed | deferred | arrived | cancelled | expired | looked | took | stopped | completed
  | reported | abandoned | rested => exact ⟨rfl, rfl, rfl, rfl, rfl⟩
  | applied part parts error stage =>
      obtain ⟨message, rules, attached, sequence⟩ := p.writer.after_sameOutlet part
      exact ⟨rfl, message, rules, attached, congrArg (· + _) sequence⟩
  | closed e terminal stage last =>
      obtain ⟨message, rules, attached, sequence⟩ := p.writer.drained_sameOutlet
      exact ⟨rfl, message, rules, attached, congrArg (· + _) sequence⟩

theorem Runs.continues {p q : Processor} {signals : List Signal} {is : List Increment}
    (h : Runs p signals q is) : Continues p q is := by
  induction h with
  | nil p => exact ⟨rfl, rfl, rfl, rfl, rfl⟩
  | cons move _ ih =>
      have first := move.continues
      refine ⟨ih.limit.trans first.limit, ih.message.trans first.message,
        ih.rules.trans first.rules, ih.attached.trans first.attached, ?_⟩
      rw [ih.sequence, first.sequence, List.length_append, Nat.add_assoc]

/-- As long as the receiver is there, a reply proceeds by these steps and numbers its
    increments without a gap. -/
theorem run_runs {p : Processor} (there : p.writer.attached = true) {signals : List Signal}
    (kept : .detach ∉ signals) :
    ∃ is, Runs p signals (p.run signals).1 is
      ∧ (p.run signals).2 = numbered p.writer.message p.writer.sequence is := by
  induction signals generalizing p with
  | nil => exact ⟨[], .nil p, rfl⟩
  | cons s rest ih =>
      obtain ⟨first, unkept⟩ := not_or.mp (mt List.mem_cons.mpr kept)
      obtain ⟨is, move, sent⟩ := step_moves there (Ne.symm first)
      have next := move.continues
      obtain ⟨js, moves, more⟩ := ih (next.attached.trans there) unkept
      refine ⟨is ++ js, .cons move moves, ?_⟩
      simp only [run]
      rw [sent, more, numbered_append, next.message, next.sequence]

theorem run_append (p : Processor) (signals more : List Signal) :
    p.run (signals ++ more) =
      (((p.run signals).1.run more).1, (p.run signals).2 ++ ((p.run signals).1.run more).2) := by
  induction signals generalizing p with
  | nil => rfl
  | cons s rest ih => simp only [List.cons_append, run, ih, List.append_assoc]

/-- The token that a step takes from the stream. -/
def takes (p : Processor) (s : Signal) : Option Token :=
  match s, p.stage, p.find with
  | .work, .watching, .token t => some t
  | _, _, _ => none

/-- The tokens that are taken from the stream, in order. -/
def taken (p : Processor) : List Signal → List Token
  | [] => []
  | s :: rest => (p.takes s).toList ++ (p.step s).1.taken rest

/-- What the stream has yielded among some signals. -/
def arrivals (signals : List Signal) : List Arrival :=
  signals.filterMap fun
    | .arrive a => some a
    | _ => none

/-- The part of a token that a step hands to the writer. -/
def applies (p : Processor) (s : Signal) : Option Token.Part :=
  match s, p.stage with
  | .work, .taking (part :: _) _ => some part
  | _, _ => none

/-- The parts of tokens that are handed to the writer, in order. -/
def applied (p : Processor) : List Signal → List Token.Part
  | [] => []
  | s :: rest => (p.applies s).toList ++ (p.step s).1.applied rest

/-- The parts of the last token that have not been handed on. -/
def pending (p : Processor) : List Token.Part :=
  match p.stage with
  | .taking parts _ => parts
  | _ => []

theorem Moves.arrivals {p q : Processor} {s : Signal} {is : List Increment}
    (move : Moves p s q is) :
    p.waiting ++ Processor.arrivals [s] = (p.takes s).toList.map .token ++ q.waiting := by
  cases move with
  | arrived a => simp [Processor.arrivals, takes]
  | flushed | deferred | cancelled | expired => simp [Processor.arrivals, takes]
  | looked stage found | stopped stage _ found => simp [Processor.arrivals, takes, stage, found]
  | took stage t found =>
      cases find_eq_iff.mp found with
      | token _ _ _ _ rest next => simp [Processor.arrivals, takes, stage, found, next]
  | applied _ _ _ stage | completed stage | reported _ stage | closed _ _ stage
  | abandoned _ stage | rested _ stage => simp [Processor.arrivals, takes, stage]

/-- What has arrived has been taken, in this order, or it waits. -/
theorem Runs.arrivals {p q : Processor} {signals : List Signal} {is : List Increment}
    (runs : Runs p signals q is) :
    p.waiting ++ Processor.arrivals signals = (p.taken signals).map .token ++ q.waiting := by
  induction runs with
  | nil p => simp [Processor.arrivals, taken]
  | @cons p r s rest is js move _ ih =>
      have split : Processor.arrivals (s :: rest) =
          Processor.arrivals [s] ++ Processor.arrivals rest :=
        List.filterMap_append (l := [s])
      rw [split, ← List.append_assoc, move.arrivals, List.append_assoc, ih, taken,
        List.map_append, List.append_assoc]

/-! ## After the end -/

theorem step_of_over {p : Processor} {e : Ending} (ended : p.stage = .ended e) (s : Signal) :
    (p.step s).1.stage = .ended e := by
  cases s <;> simp [step, tick, work, ended]

theorem Runs.stays_ended {p q : Processor} {signals : List Signal} {is : List Increment}
    (runs : Runs p signals q is) {e : Ending} (ended : p.stage = .ended e) :
    q.stage = .ended e := by
  induction runs with
  | nil p => exact ended
  | cons move _ ih => exact ih (step_of_over ended _)

theorem run_of_over {p : Processor} {e : Ending} (ended : p.stage = .ended e)
    (signals : List Signal) : (p.run signals).1.stage = .ended e := by
  induction signals generalizing p with
  | nil => exact ended
  | cons s rest ih => exact ih (step_of_over ended s)

end NoteAssistant.Processor
