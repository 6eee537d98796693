import NoteAssistant.Routing.Jobs

/-! # How steps of a turn compose

What a chain of steps does to the world, as equations. Proofs about longer steps take
them apart with these and never open the step's own definition of sequencing.
-/

namespace NoteAssistant.Run

variable {α β : Type} {w v : World}

/-- What comes after a step that has answered or failed. -/
theorem bind_eq (step : Run α) (next : α → Run β) (w : World) :
    (step >>= next) w =
      match step w with
      | (.ok a, v) => next a v
      | (.error e, v) => (.error e, v) := by
  change ExceptT.bindCont next (step w).1 (step w).2 = _
  rcases step w with ⟨answer, v⟩
  cases answer <;> rfl

@[simp] theorem pure_eq (a : α) (w : World) : (pure a : Run α) w = (.ok a, w) := rfl

@[simp] theorem throw_eq (e : Fault) (w : World) : (throw e : Run α) w = (.error e, w) := rfl

theorem bind_of_ok {step : Run α} {a : α} (done : step w = (.ok a, v)) (next : α → Run β) :
    (step >>= next) w = next a v := by
  rw [bind_eq, done]

theorem bind_eq_ok {step : Run α} {next : α → Run β} {b : β} :
    (step >>= next) w = (.ok b, v) ↔
      ∃ a u, step w = (.ok a, u) ∧ next a u = (.ok b, v) := by
  constructor
  · intro done
    rw [bind_eq] at done
    split at done
    case h_1 a u first => exact ⟨a, u, first, done⟩
    case h_2 => cases done
  · rintro ⟨a, u, first, rest⟩
    rw [bind_of_ok first, rest]

@[simp] theorem attempt_eq (step : Run α) (w : World) :
    attempt step w = (.ok (step w).1, (step w).2) := rfl

theorem map_eq (f : α → β) (step : Run α) (w : World) :
    (f <$> step) w = ((step w).1.map f, (step w).2) := by
  rw [← bind_pure_comp, bind_eq]
  rcases step w with ⟨answer, v⟩
  cases answer <;> rfl

theorem attempt_map (f : α → β) (step : Run α) :
    attempt (f <$> step) = Except.map f <$> attempt step := by
  funext w
  rw [attempt_eq, map_eq, map_eq]
  rfl

theorem lift_map (f : α → β) (answer : Except Fault α) :
    Router.lift (answer.map f) = f <$> Router.lift answer := by
  cases answer <;> rfl

theorem bind_get (next : World → Run β) (w : World) : ((get : Run World) >>= next) w = next w w :=
  bind_of_ok (v := w) rfl next

theorem ensureBefore_eq (moment : Option Nat) (e : Fault) (w : World) :
    ensureBefore moment e w =
      if moment.any (· ≤ w.clock) then (.error e, w) else (.ok (), w) := by
  unfold ensureBefore
  rw [bind_get]
  split <;> rfl

theorem lift_eq_ok {answer : Except Fault α} {a : α} :
    Router.lift answer w = (.ok a, v) ↔ answer = .ok a ∧ w = v := by
  constructor
  · intro done
    cases answer with
    | error e => cases done
    | ok b =>
        cases done
        exact ⟨rfl, rfl⟩
  · rintro ⟨rfl, rfl⟩
    rfl

end NoteAssistant.Run
