import NoteAssistant.Proofs.Reply.Delivery

/-! # A reply without a receiver

Once no one receives a reply any more, nothing is sent, whatever happens then
(`Processor.run_detached`).
-/

namespace NoteAssistant

namespace Writer

/-- An operation that has no one to send to. -/
structure Mute (d : Delivery) : Prop where
  gone : d.writer.attached = false
  sent : d.sent = []

section Mute

variable {w : Writer} (gone : w.attached = false)
include gone

theorem pass_mute : Mute w.pass := ⟨gone, rfl⟩

theorem send_mute (i : Increment) : Mute (w.send i) := by
  constructor <;> simp [send, gone]

omit gone in
theorem andThen_mute {d : Delivery} {next : Writer → Delivery} (first : Mute d)
    (second : ∀ v, v.attached = false → Mute (next v)) : Mute (d.andThen next) := by
  unfold Delivery.andThen
  split
  case isTrue =>
    have later := second d.writer first.gone
    exact ⟨later.gone, by simp [first.sent, later.sent]⟩
  case isFalse => exact first

theorem sendBuffer_mute : Mute w.sendBuffer := by
  unfold sendBuffer
  split
  case isTrue => exact pass_mute gone
  case isFalse => exact send_mute (w := { w with buffer := [] }) gone _

theorem flush_mute : Mute w.flush := by
  unfold flush
  split
  case isTrue => exact sendBuffer_mute gone
  case isFalse => exact pass_mute gone

theorem drain_mute : Mute w.drain := by
  unfold drain
  apply sendBuffer_mute
  simpa using gone

theorem sendPending_mute : Mute w.sendPending := by
  unfold sendPending
  split
  case h_1 => exact send_mute (w := { w with pendingUsage := none }) gone _
  case h_2 => exact pass_mute gone

theorem close_mute (terminal : Increment) : Mute (w.close terminal) := by
  refine andThen_mute (drain_mute gone) fun v gone => ?_
  exact andThen_mute (sendPending_mute gone) fun v gone => send_mute gone terminal

theorem take_mute (part : Token.Part) : Mute (w.take part) := by
  cases part with
  | reasoning text =>
      refine pass_mute ?_
      simp only [pushReasoning]
      split <;> exact gone
  | content text => exact pass_mute (by simpa [pushContent] using gone)
  | finish reason =>
      change Mute (w.finish reason)
      refine andThen_mute (drain_mute gone) fun v gone => ?_
      refine andThen_mute (send_mute (w := { v with finished := true }) gone _) fun v gone => ?_
      exact sendPending_mute gone
  | usage model usage =>
      change Mute (w.usage model usage)
      unfold Writer.usage
      split
      case isTrue => exact andThen_mute (drain_mute gone) fun v gone => send_mute gone _
      case isFalse => exact pass_mute gone

end Mute

end Writer

namespace Processor

theorem step_detached {p : Processor} (gone : p.writer.attached = false) (s : Signal) :
    (p.step s).1.writer.attached = false ∧ (p.step s).2 = [] := by
  cases s with
  | tick =>
      have mute := Writer.flush_mute gone
      simp only [step, tick]
      split
      case h_1 => exact ⟨gone, rfl⟩
      case h_2 => exact ⟨mute.gone, mute.sent⟩
  | arrive | cancel | expire => exact ⟨gone, rfl⟩
  | detach => exact ⟨rfl, rfl⟩
  | work =>
      simp only [step, work]
      split
      case h_1 =>
        refine ⟨?_, rfl⟩
        unfold watch
        split <;> exact gone
      case h_2 part parts error _ =>
        have mute := Writer.take_mute gone part
        exact ⟨mute.gone, mute.sent⟩
      case h_5 e _ =>
        split
        case h_1 terminal _ =>
          have mute := Writer.close_mute gone terminal
          exact ⟨mute.gone, mute.sent⟩
        case h_2 => exact ⟨gone, rfl⟩
      all_goals exact ⟨gone, rfl⟩

theorem run_detached {p : Processor} (gone : p.writer.attached = false) (signals : List Signal) :
    (p.run signals).1.writer.attached = false ∧ (p.run signals).2 = [] := by
  induction signals generalizing p with
  | nil => exact ⟨gone, rfl⟩
  | cons s rest ih =>
      obtain ⟨still, first⟩ := step_detached gone s
      obtain ⟨last, later⟩ := ih still
      exact ⟨last, by simp [run, first, later]⟩

end Processor

end NoteAssistant
