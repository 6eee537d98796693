import Mathlib.Data.List.Induction
import NoteAssistant.Proofs.Reply.Soundness

/-! # Why a reply ends

A reply ends for the first cause that the processor comes upon, and for no other one
(`Processor.Fresh.ending_iff`). From the moment of a cancellation or of the time limit on
nothing is taken from the stream (`Processor.taken_of_cause`).
-/

namespace NoteAssistant

/-- The ending of a reply that has one. -/
def Stage.ending? : Stage → Option Ending
  | closing e | ended e => some e
  | _ => none

namespace Processor

/-! ## What stays -/

section Flags

variable (p : Processor)

theorem tick_flags : p.tick.1.cancelled = p.cancelled ∧ p.tick.1.expired = p.expired := by
  unfold tick
  split <;> exact ⟨rfl, rfl⟩

theorem work_flags : p.work.1.cancelled = p.cancelled ∧ p.work.1.expired = p.expired := by
  unfold work
  split
  case h_1 =>
    unfold watch
    split <;> exact ⟨rfl, rfl⟩
  case h_5 => split <;> exact ⟨rfl, rfl⟩
  all_goals exact ⟨rfl, rfl⟩

theorem step_cancelled (s : Signal) :
    (p.step s).1.cancelled = true ↔ p.cancelled = true ∨ s = .cancel := by
  cases s with
  | tick => simp [step, tick_flags]
  | work => simp [step, work_flags]
  | arrive | cancel | expire | detach => simp [step]

theorem step_expired (s : Signal) :
    (p.step s).1.expired = true ↔ p.expired = true ∨ s = .expire := by
  cases s with
  | tick => simp [step, tick_flags]
  | work => simp [step, work_flags]
  | arrive | cancel | expire | detach => simp [step]

theorem run_cancelled (signals : List Signal) :
    (p.run signals).1.cancelled = true ↔ p.cancelled = true ∨ .cancel ∈ signals := by
  induction signals generalizing p with
  | nil => simp [run]
  | cons s rest ih =>
      rw [run, ih, step_cancelled, List.mem_cons, or_assoc, eq_comm (a := s)]

theorem run_expired (signals : List Signal) :
    (p.run signals).1.expired = true ↔ p.expired = true ∨ .expire ∈ signals := by
  induction signals generalizing p with
  | nil => simp [run]
  | cons s rest ih =>
      rw [run, ih, step_expired, List.mem_cons, or_assoc, eq_comm (a := s)]

end Flags

theorem step_ending {p : Processor} {e : Ending} (h : p.stage.ending? = some e) (s : Signal) :
    (p.step s).1.stage.ending? = some e := by
  cases stage : p.stage with
  | watching | taking => simp [stage, Stage.ending?] at h
  | closing e' =>
      rw [stage] at h
      cases s with
      | tick => simpa [step, tick, stage] using h
      | work =>
          simp only [step, work, stage]
          split <;> exact h
      | arrive | cancel | expire | detach => simpa [step, stage] using h
  | ended e' =>
      rw [stage] at h
      cases s <;> simpa [step, tick, work, stage] using h

theorem run_ending {p : Processor} {e : Ending} (h : p.stage.ending? = some e)
    (signals : List Signal) : (p.run signals).1.stage.ending? = some e := by
  induction signals generalizing p with
  | nil => exact h
  | cons s rest ih => exact ih (step_ending h s)

theorem taken_append (p : Processor) (signals more : List Signal) :
    p.taken (signals ++ more) = p.taken signals ++ (p.run signals).1.taken more := by
  induction signals generalizing p with
  | nil => rfl
  | cons s rest ih => simp only [List.cons_append, taken, run, ih, List.append_assoc]

theorem Moves.taking {p q : Processor} {s : Signal} {is : List Increment}
    (move : Moves p s q is) {parts : List Token.Part} {error : Option String}
    (stage : q.stage = .taking parts error) :
    (∃ t, p.takes s = some t ∧ t.error = error)
      ∨ p.takes s = none ∧ ∃ before, p.stage = .taking before error := by
  cases move with
  | took watching t found =>
      injection stage with _ same
      exact .inl ⟨t, by simp [takes, watching, found], same⟩
  | applied part rest error' before =>
      injection stage with _ same
      exact .inr ⟨by simp [takes, before], _, same ▸ before⟩
  | flushed | deferred | arrived | cancelled | expired =>
      exact .inr ⟨by simp [takes], parts, stage⟩
  | looked watching | rested _ watching => simp [watching] at stage
  | stopped | completed | reported | closed | abandoned => cases stage

/-! ## Causes -/

/-- What makes a reply end when the processor gets to work after some signals, and the last
    increment that each cause calls for. Of several causes at one moment the first one of this
    list counts. -/
inductive Cause (p : Processor) (before : List Signal) : Ending → Increment → Prop where
  | cancelled (watching : (p.run before).1.stage = .watching) (told : .cancel ∈ before) :
      Cause p before .cancelled .cancelled
  | late (watching : (p.run before).1.stage = .watching) (untold : .cancel ∉ before)
      (passed : .expire ∈ before) :
      Cause p before (.failed (Fault.timeout p.limit).message)
        (.error (Fault.timeout p.limit).message)
  /-- All that the stream has yielded before it broke has been taken. -/
  | broken (watching : (p.run before).1.stage = .watching) (untold : .cancel ∉ before)
      (inTime : .expire ∉ before) (e : Fault) (rest : List Arrival)
      (next : arrivals before = (p.taken before).map .token ++ .broken e :: rest) :
      Cause p before (.failed e.message) (.error e.message)
  | ended (watching : (p.run before).1.stage = .watching) (untold : .cancel ∉ before)
      (inTime : .expire ∉ before) (rest : List Arrival)
      (next : arrivals before = (p.taken before).map .token ++ .ended :: rest) :
      Cause p before .done .done
  /-- The token that was taken last reports an error, and all its parts have been applied. -/
  | reported (t : Token) (text : String) (last : (p.taken before).getLast? = some t)
      (error : t.error = some text) (taken : (p.run before).1.stage = .taking [] (some text)) :
      Cause p before (.failed text) (.error text)

/-- What is sent last is what the cause calls for. -/
theorem Cause.terminal {p : Processor} {before : List Signal} {e : Ending} {i : Increment}
    (cause : Cause p before e i) : e.terminal? = some i := by
  cases cause <;> rfl

/-- The cause that the processor comes upon first. -/
def FirstCause (p : Processor) (signals : List Signal) (e : Ending) (i : Increment) : Prop :=
  ∃ before after, signals = before ++ .work :: after ∧ Cause p before e i
    ∧ ∀ earlier between e' i', before = earlier ++ .work :: between → ¬ Cause p earlier e' i'

theorem FirstCause.terminal {p : Processor} {signals : List Signal} {e : Ending} {i : Increment}
    (first : FirstCause p signals e i) : e.terminal? = some i := by
  obtain ⟨_, _, _, cause, _⟩ := first
  exact cause.terminal

/-- A reply to which nothing has happened. -/
structure Fresh (p : Processor) : Prop where
  there : p.writer.attached = true
  watching : p.stage = .watching
  uncancelled : p.cancelled = false
  inTime : p.expired = false
  idle : p.waiting = []

theorem Fresh.start (message : String) (rules : MaskRules) (limit : Duration) :
    (start message rules limit).Fresh := ⟨rfl, rfl, rfl, rfl, rfl⟩

section Causes

variable {p : Processor} (fresh : p.Fresh)

include fresh

theorem Fresh.cancelled_run (signals : List Signal) :
    (p.run signals).1.cancelled = true ↔ .cancel ∈ signals := by
  simp [run_cancelled, fresh.uncancelled]

theorem Fresh.expired_run (signals : List Signal) :
    (p.run signals).1.expired = true ↔ .expire ∈ signals := by
  simp [run_expired, fresh.inTime]

theorem Fresh.run_continues {signals : List Signal} (kept : .detach ∉ signals) :
    (p.run signals).1.writer.attached = true ∧ (p.run signals).1.limit = p.limit := by
  obtain ⟨is, runs, _⟩ := run_runs fresh.there kept
  exact ⟨runs.continues.attached.trans fresh.there, runs.continues.limit⟩

theorem Fresh.arrivals_run {signals : List Signal} (kept : .detach ∉ signals) :
    arrivals signals = (p.taken signals).map .token ++ (p.run signals).1.waiting := by
  obtain ⟨is, runs, _⟩ := run_runs fresh.there kept
  rw [← runs.arrivals, fresh.idle, List.nil_append]

/-- What is being taken is the token that was taken last. -/
theorem Fresh.last_taken {before : List Signal} (kept : .detach ∉ before)
    {parts : List Token.Part} {error : Option String}
    (stage : (p.run before).1.stage = .taking parts error) :
    ∃ t, (p.taken before).getLast? = some t ∧ t.error = error := by
  induction before using List.reverseRecOn generalizing parts with
  | nil =>
      rw [run, fresh.watching] at stage
      cases stage
  | append_singleton before s ih =>
      obtain ⟨unkept, last⟩ : .detach ∉ before ∧ .detach ≠ s := by simpa using kept
      obtain ⟨is, move, _⟩ := step_moves (fresh.run_continues unkept).1 last.symm
      rw [run_append] at stage
      rw [taken_append, taken, taken, List.append_nil]
      rcases move.taking stage with ⟨t, takes, same⟩ | ⟨takes, earlier, still⟩
      · exact ⟨t, by simp [takes], same⟩
      · simpa [takes] using ih unkept still

theorem Fresh.cause_of_find {before : List Signal} (kept : .detach ∉ before) {e : Ending}
    (watching : (p.run before).1.stage = .watching)
    (found : (p.run before).1.find = .ending e) : ∃ i, Cause p before e i := by
  obtain ⟨there, limit⟩ := fresh.run_continues kept
  have told := fresh.cancelled_run before
  have passed := fresh.expired_run before
  have inTime (early : (p.run before).1.expired = false) : .expire ∉ before := fun mem => by
    simp [passed.mpr mem] at early
  have untold (going : (p.run before).1.cancelled = false) : .cancel ∉ before := fun mem => by
    simp [told.mpr mem] at going
  have arrived := fresh.arrivals_run kept
  cases find_eq_iff.mp found with
  | cancelled cancelled => exact ⟨_, .cancelled watching (told.mp cancelled)⟩
  | detached _ gone => simp [there] at gone
  | late going _ late =>
      rw [limit]
      exact ⟨_, .late watching (untold going) (passed.mp late)⟩
  | broken going _ early fault rest waiting =>
      exact ⟨_, .broken watching (untold going) (inTime early) fault rest (waiting ▸ arrived)⟩
  | ended going _ early rest waiting =>
      exact ⟨_, .ended watching (untold going) (inTime early) rest (waiting ▸ arrived)⟩

/-- A cause makes the reply end as soon as the processor gets to work. -/
theorem Fresh.ending_of_cause {before : List Signal} (kept : .detach ∉ before) {e : Ending}
    {i : Increment} (cause : Cause p before e i) :
    (p.run before).1.stage.ending? = none
      ∧ ((p.run before).1.step .work).1.stage.ending? = some e := by
  obtain ⟨there, limit⟩ := fresh.run_continues kept
  have told := fresh.cancelled_run before
  have passed := fresh.expired_run before
  have uncancelled (untold : .cancel ∉ before) : (p.run before).1.cancelled = false := by
    simpa using mt told.mp untold
  have early (inTime : .expire ∉ before) : (p.run before).1.expired = false := by
    simpa using mt passed.mp inTime
  have arrived := fresh.arrivals_run kept
  have closes {e : Ending} (watching : (p.run before).1.stage = .watching)
      (found : (p.run before).1.Finds (.ending e)) :
      (p.run before).1.stage.ending? = none
        ∧ ((p.run before).1.step .work).1.stage.ending? = some e := by
    simp [watching, Stage.ending?, step, work, watch, find_eq_iff.mpr found]
  cases cause with
  | cancelled watching cancel => exact closes watching (.cancelled (told.mpr cancel))
  | late watching untold late =>
      exact closes watching (limit ▸ .late (uncancelled untold) there (passed.mpr late))
  | broken watching untold inTime fault rest next =>
      have waiting := List.append_cancel_left (arrived.symm.trans next)
      exact closes watching (.broken (uncancelled untold) there (early inTime) fault rest waiting)
  | ended watching untold inTime rest next =>
      have waiting := List.append_cancel_left (arrived.symm.trans next)
      exact closes watching (.ended (uncancelled untold) there (early inTime) rest waiting)
  | reported t text _ _ taken => simp [taken, Stage.ending?, step, work]

/-- A reply gets its ending at work, and from a cause. -/
theorem Fresh.cause_of_ending {before : List Signal} {s : Signal} (kept : .detach ∉ before)
    (first : s ≠ .detach) {e : Ending} (unended : (p.run before).1.stage.ending? = none)
    (ended : ((p.run before).1.step s).1.stage.ending? = some e) :
    s = .work ∧ ∃ i, Cause p before e i := by
  obtain ⟨there, _⟩ := fresh.run_continues kept
  obtain ⟨is, move, _⟩ := step_moves there first
  generalize ((p.run before).1.step s).1 = q at move ended
  cases move with
  | flushed | deferred | arrived | cancelled | expired => simp [unended] at ended
  | looked stage => simp [unended] at ended
  | took | applied | completed => simp [Stage.ending?] at ended
  | stopped stage e' found =>
      obtain rfl : e' = e := by simpa [Stage.ending?] using ended
      exact ⟨rfl, fresh.cause_of_find kept stage found⟩
  | reported text stage =>
      obtain rfl : .failed text = e := by simpa [Stage.ending?] using ended
      obtain ⟨t, last, error⟩ := fresh.last_taken kept stage
      exact ⟨rfl, _, .reported t text last error stage⟩
  | closed e' _ stage | abandoned e' stage | rested e' stage =>
      simp [stage, Stage.ending?] at unended

/-- A reply ends for the first cause, and for no other one. -/
theorem Fresh.ending_iff {signals : List Signal} (kept : .detach ∉ signals) (e : Ending) :
    (p.run signals).1.stage.ending? = some e ↔ ∃ i, FirstCause p signals e i := by
  constructor
  · intro ended
    induction signals using List.reverseRecOn with
    | nil =>
        rw [run, fresh.watching] at ended
        cases ended
    | append_singleton before s ih =>
        obtain ⟨unkept, last⟩ : .detach ∉ before ∧ .detach ≠ s := by simpa using kept
        rw [run_append] at ended
        cases done : (p.run before).1.stage.ending? with
        | some e' =>
            have still := run_ending done [s]
            obtain ⟨i, start, after, split, cause, first⟩ :=
              ih unkept (done.trans (still.symm.trans ended))
            exact ⟨i, start, after ++ [s], by simp [split], cause, first⟩
        | none =>
            obtain ⟨rfl, i, cause⟩ := fresh.cause_of_ending unkept last.symm done ended
            refine ⟨i, before, [], rfl, cause, ?_⟩
            intro earlier between e' i' split earlierCause
            have prior : .detach ∉ earlier := fun mem => unkept (by simp [split, mem])
            have ended := run_ending (fresh.ending_of_cause prior earlierCause).2 between
            rw [split, run_append] at done
            rw [run] at done
            simp [ended] at done
  · rintro ⟨_, before, after, rfl, cause, _⟩
    have unkept : .detach ∉ before := fun mem => kept (by simp [mem])
    rw [run_append]
    exact run_ending (fresh.ending_of_cause unkept cause).2 after

end Causes

/-! ## Nothing more is taken -/

theorem find_of_stopped {p : Processor} (stopped : p.cancelled = true ∨ p.expired = true) :
    ∃ e, p.find = .ending e := by
  have finds := p.find_finds
  generalize p.find = f at finds
  cases finds with
  | nothing untold _ inTime | token untold _ inTime => simp [untold, inTime] at stopped
  | cancelled | detached | late | broken | ended => exact ⟨_, rfl⟩

theorem taken_of_stopped {p : Processor} (stopped : p.cancelled = true ∨ p.expired = true)
    (signals : List Signal) : p.taken signals = [] := by
  induction signals generalizing p with
  | nil => rfl
  | cons s rest ih =>
      have still : (p.step s).1.cancelled = true ∨ (p.step s).1.expired = true := by
        rw [step_cancelled, step_expired]
        exact stopped.imp .inl .inl
      obtain ⟨e, found⟩ := find_of_stopped stopped
      have none : p.takes s = none := by
        unfold takes
        split
        case h_1 _ token => simp [found] at token
        case h_2 => rfl
      simp only [taken, none, ih still]
      rfl

/-- Once a reply has been cancelled or is out of time, no token is taken for it. -/
theorem taken_of_cause {before after : List Signal} (p : Processor)
    (cause : .cancel ∈ before ∨ .expire ∈ before) :
    p.taken (before ++ after) = p.taken before := by
  have stopped : (p.run before).1.cancelled = true ∨ (p.run before).1.expired = true := by
    rw [run_cancelled, run_expired]
    exact cause.imp .inr .inr
  rw [taken_append, taken_of_stopped stopped, List.append_nil]

end Processor

end NoteAssistant
