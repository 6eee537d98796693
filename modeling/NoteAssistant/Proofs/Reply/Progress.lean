import NoteAssistant.Proofs.Reply.Causes

/-! # That a reply ends

Once a reply has been cancelled or is out of time, or the last arrival waits for it, the
number of operations that are left until it is over is settled (`Processor.due`). No
signal makes this number larger, and every operation makes it smaller.
-/

namespace NoteAssistant

/-- An arrival after which no other one is looked at. -/
def Arrival.isLast : Arrival → Bool
  | token t => t.error.isSome
  | _ => true

/-- A signal after which a reply is bound to end. -/
def Signal.isDecisive : Signal → Bool
  | cancel | expire => true
  | arrive a => a.isLast
  | _ => false

namespace Processor

/-- The operations that are left when these arrivals wait, if one of them is the last. -/
def dueFor : List Arrival → Option Nat
  | [] => none
  | .token t :: rest =>
    (if t.error.isSome then some 1 else dueFor rest).map (t.parts.length + 2 + ·)
  | _ :: _ => some 2

/-- The operations that are left for a processor that looks out. -/
def dueWatching (p : Processor) : Option Nat :=
  if p.cancelled || p.expired then some 2 else dueFor p.waiting

/-- The operations that are left until the reply is over, if its end is settled. -/
def due (p : Processor) : Option Nat :=
  match p.stage with
  | .watching => p.dueWatching
  | .taking parts error =>
    (if error.isSome then some 1 else p.dueWatching).map (parts.length + 1 + ·)
  | .closing _ => some 1
  | .ended _ => some 0

theorem dueFor_append {waiting : List Arrival} {n : Nat} (h : dueFor waiting = some n)
    (more : List Arrival) : dueFor (waiting ++ more) = some n := by
  induction waiting generalizing n with
  | nil => cases h
  | cons a rest ih =>
      cases a with
      | broken e | ended => exact h
      | token t =>
          cases error : t.error with
          | some text => simpa [dueFor, error] using h
          | none =>
              simp only [List.cons_append, dueFor, error, Option.isSome_none, Bool.false_eq_true,
                if_false, Option.map_eq_some_iff] at h ⊢
              obtain ⟨m, settled, rfl⟩ := h
              exact ⟨m, ih settled, rfl⟩

theorem two_le_of_dueFor {waiting : List Arrival} {n : Nat} (h : dueFor waiting = some n) :
    2 ≤ n := by
  cases waiting with
  | nil => cases h
  | cons a rest =>
      cases a with
      | broken e | ended =>
          cases h
          exact Nat.le_refl _
      | token t =>
          obtain ⟨m, _, rfl⟩ := Option.map_eq_some_iff.mp h
          omega

theorem dueFor_of_last {waiting : List Arrival} (h : ∃ a ∈ waiting, a.isLast = true) :
    ∃ n, dueFor waiting = some n := by
  induction waiting with
  | nil => simp at h
  | cons a rest ih =>
      cases a with
      | broken e | ended => exact ⟨2, rfl⟩
      | token t =>
          cases error : t.error with
          | some text => simp [dueFor, error]
          | none =>
              obtain ⟨n, settled⟩ := ih (by simpa [Arrival.isLast, error] using h)
              simp [dueFor, error, settled]

theorem two_le_of_dueWatching {p : Processor} {n : Nat} (h : p.dueWatching = some n) :
    2 ≤ n := by
  unfold dueWatching at h
  split at h
  case isTrue =>
    cases h
    exact Nat.le_refl _
  case isFalse => exact two_le_of_dueFor h

theorem due_of_dueWatching {p : Processor} {n : Nat} (h : p.dueWatching = some n) :
    ∃ m, p.due = some m := by
  unfold due
  split
  case h_1 => exact ⟨n, h⟩
  case h_2 parts error _ => cases error <;> simp [h]
  case h_3 => exact ⟨1, rfl⟩
  case h_4 => exact ⟨0, rfl⟩

theorem due_le {p q : Processor} (stage : q.stage = p.stage)
    (sooner : ∀ n, p.dueWatching = some n → ∃ m, q.dueWatching = some m ∧ m ≤ n) {n : Nat}
    (h : p.due = some n) : ∃ m, q.due = some m ∧ m ≤ n := by
  unfold due at h ⊢
  rw [stage]
  split at h
  case h_1 at_ => exact sooner n h
  case h_2 parts error at_ =>
    cases error with
    | some text => exact ⟨n, h, Nat.le_refl _⟩
    | none =>
        obtain ⟨k, settled, rfl⟩ := Option.map_eq_some_iff.mp h
        obtain ⟨m, still, le⟩ := sooner k settled
        exact ⟨parts.length + 1 + m, by simp [still], by omega⟩
  case h_3 | h_4 => exact ⟨n, h, Nat.le_refl _⟩

theorem dueWatching_arrived {p : Processor} {n : Nat} (h : p.dueWatching = some n)
    (a : Arrival) : { p with waiting := p.waiting ++ [a] }.dueWatching = some n := by
  unfold dueWatching at h ⊢
  split at h
  case isTrue stopped => rwa [if_pos stopped]
  case isFalse going =>
    rw [if_neg going]
    exact dueFor_append h [a]

theorem dueWatching_of_stopped {p : Processor} (stopped : p.cancelled = true ∨ p.expired = true) :
    p.dueWatching = some 2 := by
  rw [dueWatching, if_pos (by simpa using stopped)]

theorem going_of_found {p : Processor} {t : Token} (found : p.find = .token t) :
    (p.cancelled || p.expired) = false ∧ ∃ rest, p.waiting = .token t :: rest := by
  cases find_eq_iff.mp found with
  | token untold _ inTime _ rest next => exact ⟨by simp [untold, inTime], rest, next⟩

theorem find_ne_nothing {p : Processor} {n : Nat} (settled : p.dueWatching = some n) :
    p.find ≠ .nothing := by
  intro found
  cases find_eq_iff.mp found with
  | nothing untold _ inTime idle => simp [dueWatching, untold, inTime, idle, dueFor] at settled

theorem Moves.due_step {p q : Processor} {s : Signal} {is : List Increment}
    (move : Moves p s q is) {n : Nat} (settled : p.due = some n) :
    ∃ m, q.due = some m ∧ m ≤ n - [s].count .work := by
  cases move with
  | flushed => exact ⟨n, settled, Nat.le_refl n⟩
  | deferred => exact ⟨n, settled, Nat.le_refl n⟩
  | arrived a =>
      let q := { p with waiting := p.waiting ++ [a] }
      have stage : q.stage = p.stage := rfl
      exact due_le stage (fun k h => ⟨k, dueWatching_arrived h a, Nat.le_refl k⟩) settled
  | cancelled =>
      let q := { p with cancelled := true }
      have stage : q.stage = p.stage := rfl
      have stopped : q.dueWatching = some 2 := dueWatching_of_stopped (.inl rfl)
      exact due_le stage (fun k h => ⟨2, stopped, two_le_of_dueWatching h⟩) settled
  | expired =>
      let q := { p with expired := true }
      have stage : q.stage = p.stage := rfl
      have stopped : q.dueWatching = some 2 := dueWatching_of_stopped (.inr rfl)
      exact due_le stage (fun k h => ⟨2, stopped, two_le_of_dueWatching h⟩) settled
  | looked stage found =>
      rw [due, stage] at settled
      exact absurd found (find_ne_nothing settled)
  | took stage t found =>
      obtain ⟨going, rest, waiting⟩ := going_of_found found
      rw [due, stage] at settled
      simp only [dueWatching, going, waiting, dueFor, Bool.false_eq_true, if_false,
        Option.map_eq_some_iff] at settled
      obtain ⟨m, left, rfl⟩ := settled
      refine ⟨t.parts.length + 1 + m, ?_, by simp⟩
      simp only [due, dueWatching, going, waiting, List.tail_cons, Bool.false_eq_true, if_false,
        left, Option.map_some]
  | stopped stage e found =>
      rw [due, stage] at settled
      have wide := two_le_of_dueWatching settled
      exact ⟨1, rfl, Nat.le_sub_of_add_le wide⟩
  | applied part parts error stage =>
      simp only [due, stage, Option.map_eq_some_iff] at settled
      obtain ⟨m, left, rfl⟩ := settled
      refine ⟨parts.length + 1 + m, ?_, by simp⟩
      exact congrArg (Option.map (parts.length + 1 + ·)) left
  | completed stage =>
      simp only [due, stage, Option.map_eq_some_iff] at settled
      obtain ⟨m, left, rfl⟩ := settled
      exact ⟨m, left, by simp⟩
  | reported text stage =>
      simp only [due, stage, Option.map_eq_some_iff] at settled
      obtain ⟨m, left, rfl⟩ := settled
      cases left
      exact ⟨1, rfl, by simp⟩
  | closed e terminal stage last => exact ⟨0, rfl, Nat.zero_le _⟩
  | abandoned e stage silent => exact ⟨0, rfl, Nat.zero_le _⟩
  | rested e stage =>
      refine ⟨0, ?_, Nat.zero_le _⟩
      rw [due, stage]

theorem Runs.due_run {p q : Processor} {signals : List Signal} {is : List Increment}
    (runs : Runs p signals q is) {n : Nat} (settled : p.due = some n) :
    ∃ m, q.due = some m ∧ m ≤ n - signals.count .work := by
  induction runs generalizing n with
  | nil p => exact ⟨n, settled, Nat.le_refl n⟩
  | @cons p r s rest is js move _ ih =>
      obtain ⟨k, next, le⟩ := move.due_step settled
      obtain ⟨m, last, sooner⟩ := ih next
      have total : (s :: rest).count .work = [s].count .work + rest.count .work := by
        rw [← List.count_append, List.singleton_append]
      exact ⟨m, last, by omega⟩

theorem ended_of_due {p : Processor} (h : p.due = some 0) : ∃ e, p.stage = .ended e := by
  unfold due at h
  split at h
  case h_1 =>
    have wide := two_le_of_dueWatching h
    omega
  case h_2 =>
    obtain ⟨m, _, sum⟩ := Option.map_eq_some_iff.mp h
    omega
  case h_3 => cases h
  case h_4 e stage => exact ⟨e, stage⟩

theorem due_of_isDecisive (p : Processor) {s : Signal} (h : s.isDecisive = true) :
    ∃ n, (p.step s).1.due = some n := by
  cases s with
  | tick | detach | work => cases h
  | cancel =>
      refine due_of_dueWatching (n := 2) (dueWatching_of_stopped ?_)
      exact .inl rfl
  | expire =>
      refine due_of_dueWatching (n := 2) (dueWatching_of_stopped ?_)
      exact .inr rfl
  | arrive a =>
      have last : ∃ b ∈ p.waiting ++ [a], b.isLast = true := ⟨a, by simp, h⟩
      obtain ⟨n, settled⟩ := dueFor_of_last last
      by_cases stopped : p.cancelled = true ∨ p.expired = true
      · exact due_of_dueWatching (dueWatching_of_stopped (p := (p.step (.arrive a)).1) stopped)
      · refine due_of_dueWatching (n := n) ?_
        rw [dueWatching, if_neg (by simpa [step] using stopped)]
        exact settled

/-- After a decisive signal the reply is over as soon as the processor has worked often
    enough, whatever else happens. -/
theorem run_ended {p : Processor} (there : p.writer.attached = true) {signals : List Signal}
    (kept : .detach ∉ signals) (decisive : ∃ s ∈ signals, s.isDecisive = true) :
    ∃ n, ∀ more, .detach ∉ more → n ≤ more.count .work →
      ∃ e, (p.run (signals ++ more)).1.stage = .ended e := by
  obtain ⟨s, mem, decides⟩ := decisive
  obtain ⟨before, after, rfl⟩ := List.append_of_mem mem
  have decided : p.run (before ++ [s]) =
      (((p.run before).1.step s).1, (p.run before).2 ++ ((p.run before).1.step s).2) := by
    simp only [run_append, run, List.append_nil]
  obtain ⟨n, settled⟩ := due_of_isDecisive (p.run before).1 decides
  have unkept : .detach ∉ before ++ [s] := fun mem => by simp at mem kept; tauto
  obtain ⟨_, runs, _⟩ := run_runs there unkept
  rw [decided] at runs
  refine ⟨n, fun more silent enough => ?_⟩
  have rest : .detach ∉ after ++ more := fun mem => by simp at mem kept; tauto
  obtain ⟨_, moves, _⟩ := run_runs (runs.continues.attached.trans there) rest
  obtain ⟨m, left, le⟩ := moves.due_run settled
  obtain rfl : m = 0 := by
    rw [List.count_append] at le
    omega
  have split : before ++ s :: after ++ more = before ++ [s] ++ (after ++ more) := by simp
  rw [split, run_append, decided]
  exact ended_of_due left

end Processor

end NoteAssistant
