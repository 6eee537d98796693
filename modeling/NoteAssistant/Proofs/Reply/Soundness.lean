import NoteAssistant.Proofs.Mask.Scanning
import NoteAssistant.Proofs.Reply.Running

/-! # What every state of a reply has in common

A writer never holds back more than the beginning of a placeholder, and nothing at all
as long as reasoning may follow. A reply whose receiver is there never ends for the lack
of one.
-/

namespace NoteAssistant

namespace Writer

/-- Only the beginning of a placeholder is held back, and nothing at all before the
    answer has begun. -/
structure Sound (w : Writer) : Prop where
  holds : w.scan.Holds w.rules
  quiet : w.thinking ≠ .closed → w.scan = .idle

theorem Sound.new (message : String) (rules : MaskRules) : (new message rules).Sound :=
  ⟨trivial, fun _ => rfl⟩

theorem drained_sound (w : Writer) : w.drained.Sound := ⟨trivial, fun _ => rfl⟩

theorem flushed_sound {w : Writer} (h : w.Sound) : { w with buffer := [] }.Sound :=
  ⟨h.holds, h.quiet⟩

theorem sendAll_sound {w : Writer} (h : w.Sound) (is : List Increment) :
    (w.sendAll is).writer.Sound := ⟨h.holds, h.quiet⟩

theorem after_sound {w : Writer} (h : w.Sound) (part : Token.Part) : (w.after part).Sound := by
  cases part with
  | reasoning text =>
      simp only [after, pushReasoning]
      split
      case h_1 => exact h
      case h_2 => exact ⟨h.holds, h.quiet⟩
      case h_3 none => exact ⟨h.holds, fun _ => h.quiet (by simp [none])⟩
  | content text =>
      refine ⟨?_, fun opened => absurd rfl opened⟩
      simpa [after, pushContent] using MaskRules.push_holds h.holds text.toList
  | finish reason => exact ⟨trivial, fun _ => rfl⟩
  | usage model usage =>
      simp only [after]
      split
      case isTrue => exact w.drained_sound
      case isFalse => exact ⟨h.holds, h.quiet⟩

end Writer

namespace Processor

/-- A reply whose writer is sound and whose receiver is there. -/
structure Sound (p : Processor) : Prop where
  writer : p.writer.Sound
  there : p.writer.attached = true
  received : p.stage ≠ .closing .detached

theorem Sound.start (message : String) (rules : MaskRules) (limit : Duration) :
    (start message rules limit).Sound :=
  ⟨.new message rules, rfl, by simp [Processor.start]⟩

theorem find_ne_detached {p : Processor} (there : p.writer.attached = true) :
    p.find ≠ .ending .detached := by
  intro found
  cases find_eq_iff.mp found with
  | detached _ gone => simp [there] at gone

theorem Moves.sound {p q : Processor} {s : Signal} {is : List Increment} (move : Moves p s q is)
    (h : p.Sound) : q.Sound := by
  have there : q.writer.attached = true := move.continues.attached.trans h.there
  cases move with
  | flushed =>
      exact ⟨Writer.sendAll_sound (Writer.flushed_sound h.writer) _, there, h.received⟩
  | deferred | looked | rested => exact h
  | arrived | cancelled | expired => exact ⟨h.writer, there, h.received⟩
  | took | completed | reported | abandoned => exact ⟨h.writer, there, by simp⟩
  | stopped stage e found =>
      refine ⟨h.writer, there, ?_⟩
      simp only [ne_eq, Stage.closing.injEq]
      exact fun detached => find_ne_detached h.there (detached ▸ found)
  | applied part parts error stage =>
      exact ⟨Writer.sendAll_sound (Writer.after_sound h.writer part) _, there, by simp⟩
  | closed e terminal stage last => exact ⟨⟨trivial, fun _ => rfl⟩, there, by simp⟩

theorem Runs.sound {p q : Processor} {signals : List Signal} {is : List Increment}
    (runs : Runs p signals q is) (h : p.Sound) : q.Sound := by
  induction runs with
  | nil p => exact h
  | cons move _ ih => exact ih (move.sound h)

end Processor

end NoteAssistant
