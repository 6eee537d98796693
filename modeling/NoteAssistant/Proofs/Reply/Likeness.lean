import NoteAssistant.Proofs.Mask.Likeness
import NoteAssistant.Proofs.Reply.Schedule

/-! # Replies with other values of placeholders

Two replies are made from one stream with two maps of the same placeholders. At every
moment they stand at the same stage, and what they have sent is the same but for the
values (`Told`).
-/

namespace NoteAssistant

/-- An increment that is no text. -/
def Increment.isMark : Increment → Bool
  | text _ => false
  | _ => true

/-- Increments that are the same but for values of placeholders within their texts, and for
    how the texts are cut up. -/
structure Told (m n : MaskMap) (is js : List Increment) : Prop where
  marks : is.filter Increment.isMark = js.filter Increment.isMark
  text : m.Agree n (written is) (written js)

variable {m n : MaskMap}

namespace Told

theorem refl (is : List Increment) : Told m n is is := ⟨rfl, .refl _⟩

theorem append {is js is' js' : List Increment} (first : Told m n is js)
    (rest : Told m n is' js') : Told m n (is ++ is') (js ++ js') := by
  constructor
  · rw [List.filter_append, List.filter_append, first.marks, rest.marks]
  · rw [written_append, written_append]
    exact first.text.append rest.text

theorem textIncrements {s t : List Char} (agree : m.Agree n s t) :
    Told m n (Writer.textIncrements s) (Writer.textIncrements t) := by
  have unmarked (s : List Char) : (Writer.textIncrements s).filter Increment.isMark = [] := by
    unfold Writer.textIncrements
    split <;> rfl
  refine ⟨?_, by simpa using agree⟩
  rw [unmarked, unmarked]

end Told

namespace Writer

/-- Writers that stand at the same point with other values. -/
structure Alike (m n : MaskMap) (v w : Writer) : Prop where
  same : w = { v with
    rules := v.rules.revalued n
    buffer := w.buffer
    sequence := w.sequence }
  masks : v.rules.masks = m
  there : v.attached = true
  buffer : m.Agree n v.buffer w.buffer

namespace Alike

variable {v w : Writer}

theorem new (message : String) (r : MaskRules) :
    Alike r.masks n (.new message r) (.new message (r.revalued n)) :=
  ⟨rfl, rfl, rfl, .nil⟩

theorem sendAll (h : Alike m n v w) (is js : List Increment) :
    Alike m n (v.sendAll is).writer (w.sendAll js).writer := by
  obtain ⟨same, masks, there, buffer⟩ := h
  rw [same]
  exact ⟨rfl, masks, there, buffer⟩

theorem closeThinking (h : Alike m n v w) : Alike m n v.closeThinking w.closeThinking := by
  obtain ⟨same, masks, there, buffer⟩ := h
  rw [same]
  cases thinking : v.thinking with
  | none | closed =>
      simp only [Writer.closeThinking, thinking]
      exact ⟨by rw [← thinking], masks, there, buffer⟩
  | opened =>
      simp only [Writer.closeThinking, thinking]
      exact ⟨rfl, masks, there, buffer.append (.refl _)⟩

theorem gathered (h : Alike m n v w) : m.Agree n v.gathered w.gathered := by
  have scan : w.scan = v.scan := by rw [h.same]
  rw [Writer.gathered, Writer.gathered, scan]
  exact h.closeThinking.buffer.append (.refl _)

theorem drained (h : Alike m n v w) : Alike m n v.drained w.drained := by
  obtain ⟨same, masks, there, buffer⟩ := h.closeThinking
  rw [Writer.drained, Writer.drained, same]
  exact ⟨rfl, masks, there, .nil⟩

theorem heldUsage (h : Alike m n v w) : w.heldUsage = v.heldUsage := by
  rw [h.same]
  rfl

theorem pushReasoning (h : Alike m n v w) (text : String) :
    Alike m n (v.pushReasoning text) (w.pushReasoning text) := by
  obtain ⟨same, masks, there, buffer⟩ := h
  rw [same]
  cases thinking : v.thinking with
  | closed =>
      simp only [Writer.pushReasoning, thinking]
      exact ⟨by rw [← thinking], masks, there, buffer⟩
  | opened =>
      simp only [Writer.pushReasoning, thinking]
      exact ⟨by rw [← thinking], masks, there, buffer.append (.refl _)⟩
  | none =>
      simp only [Writer.pushReasoning, thinking]
      exact ⟨rfl, masks, there, (buffer.append (.refl _)).append (.refl _)⟩

theorem pushContent (h : Alike m n v w) (keys : m.SameKeys n) (text : String) :
    Alike m n (v.pushContent text) (w.pushContent text) := by
  obtain ⟨same, rfl, there, buffer⟩ := h.closeThinking
  obtain ⟨state, released⟩ := MaskRules.push_agree keys v.closeThinking.scan text.toList
  rw [Writer.pushContent, Writer.pushContent, same]
  dsimp only
  rw [state]
  exact ⟨rfl, rfl, there, buffer.append released⟩

theorem after (h : Alike m n v w) (keys : m.SameKeys n) (part : Token.Part) :
    Alike m n (v.after part) (w.after part) := by
  cases part with
  | reasoning text => exact h.pushReasoning text
  | content text => exact h.pushContent keys text
  | finish reason =>
      obtain ⟨same, masks, there, buffer⟩ := h.drained
      rw [Writer.after, Writer.after, same]
      exact ⟨rfl, masks, there, buffer⟩
  | usage model usage =>
      have finished : w.finished = v.finished := by rw [h.same]
      simp only [Writer.after, finished]
      split
      case isTrue => exact h.drained
      case isFalse =>
        obtain ⟨same, masks, there, buffer⟩ := h
        rw [same]
        exact ⟨rfl, masks, there, buffer⟩

theorem told (h : Alike m n v w) (part : Token.Part) :
    Told m n (v.told part) (w.told part) := by
  have finished : w.finished = v.finished := by rw [h.same]
  cases part with
  | reasoning text | content text => exact .refl []
  | finish reason =>
      rw [Writer.told, Writer.told, h.heldUsage]
      exact (Told.textIncrements h.gathered).append (.refl _)
  | usage model usage =>
      simp only [Writer.told, finished]
      split
      case isTrue => exact (Told.textIncrements h.gathered).append (.refl _)
      case isFalse => exact .refl []

theorem attached (h : Alike m n v w) : w.attached = true := by
  rw [h.same]
  exact h.there

theorem sent (h : Alike m n v w) {is js : List Increment} (told : Told m n is js) :
    Alike m n (v.sendAll is).writer (w.sendAll js).writer
      ∧ Told m n (increments (v.sendAll is).sent) (increments (w.sendAll js).sent) := by
  refine ⟨h.sendAll is js, ?_⟩
  simpa only [Writer.sendAll, increments_numbered] using told

theorem flush (h : Alike m n v w) :
    Alike m n v.flush.writer w.flush.writer
      ∧ Told m n (increments v.flush.sent) (increments w.flush.sent) := by
  have scan : w.scan = v.scan := by rw [h.same]
  cases idle : v.scan.isIdle with
  | false =>
      have waits : w.scan.isIdle = false := by rw [scan, idle]
      simp only [Writer.flush, idle, waits, Bool.false_eq_true, if_false]
      exact ⟨h, .refl []⟩
  | true =>
      rw [Writer.flush_eq h.there idle, Writer.flush_eq h.attached (by rw [scan, idle])]
      have emptied : Alike m n { v with buffer := [] } { w with buffer := [] } := by
        obtain ⟨same, masks, there, _⟩ := h
        rw [same]
        exact ⟨rfl, masks, there, .nil⟩
      exact emptied.sent (.textIncrements h.buffer)

theorem close (h : Alike m n v w) (terminal : Increment) :
    Alike m n (v.close terminal).writer (w.close terminal).writer
      ∧ Told m n (increments (v.close terminal).sent) (increments (w.close terminal).sent) := by
  rw [Writer.close_eq h.there, Writer.close_eq h.attached, h.heldUsage]
  have settled : Alike m n { v.drained with pendingUsage := none }
      { w.drained with pendingUsage := none } := by
    obtain ⟨same, masks, there, buffer⟩ := h.drained
    rw [same]
    exact ⟨rfl, masks, there, buffer⟩
  exact settled.sent ((Told.textIncrements h.gathered).append (.refl _))

end Alike

end Writer

namespace Processor

/-- Replies that stand at the same point with other values. -/
structure Alike (m n : MaskMap) (p q : Processor) : Prop where
  same : q = { p with writer := q.writer }
  writer : Writer.Alike m n p.writer q.writer

variable {p q : Processor}

theorem Alike.tick (h : Alike m n p q) :
    Alike m n p.tick.1 q.tick.1
      ∧ Told m n (increments p.tick.2) (increments q.tick.2) := by
  obtain ⟨same, writer⟩ := h
  rw [same]
  unfold Processor.tick
  dsimp only
  split
  case h_1 => exact ⟨⟨rfl, writer⟩, .refl []⟩
  case h_2 =>
    obtain ⟨next, told⟩ := writer.flush
    exact ⟨⟨rfl, next⟩, told⟩

theorem Alike.find (h : Alike m n p q) : q.find = p.find := by
  rw [h.same, h.writer.same]
  rfl

theorem Alike.watch (h : Alike m n p q) : Alike m n p.watch q.watch := by
  have found := h.find
  obtain ⟨same, writer⟩ := h
  unfold Processor.watch
  rw [found]
  cases p.find with
  | nothing => exact ⟨same, writer⟩
  | token t | ending e =>
      rw [same]
      exact ⟨rfl, writer⟩

theorem Alike.work (h : Alike m n p q) (keys : m.SameKeys n) :
    Alike m n p.work.1 q.work.1
      ∧ Told m n (increments p.work.2) (increments q.work.2) := by
  have same := h.same
  have writer := h.writer
  have stage : q.stage = p.stage := by rw [same]
  cases at_ : p.stage with
  | watching =>
      simp only [Processor.work, stage, at_]
      exact ⟨h.watch, .refl []⟩
  | taking parts error =>
      cases parts with
      | cons part parts =>
          obtain ⟨next, told⟩ := (writer.after keys part).sent (writer.told part)
          simp only [Processor.work, stage, at_, Writer.take_eq writer.there,
            Writer.take_eq writer.attached]
          rw [same]
          exact ⟨⟨rfl, next⟩, told⟩
      | nil =>
          cases error <;>
            simp only [Processor.work, stage, at_] <;>
            rw [same] <;>
            exact ⟨⟨rfl, writer⟩, .refl []⟩
  | closing e =>
      cases last : e.terminal? with
      | none =>
          simp only [Processor.work, stage, at_, last]
          rw [same]
          exact ⟨⟨rfl, writer⟩, .refl []⟩
      | some terminal =>
          obtain ⟨next, told⟩ := writer.close terminal
          simp only [Processor.work, stage, at_, last]
          rw [same]
          exact ⟨⟨rfl, next⟩, told⟩
  | ended e =>
      simp only [Processor.work, stage, at_]
      exact ⟨h, .refl []⟩

theorem Alike.step (h : Alike m n p q) (keys : m.SameKeys n) {s : Signal} (kept : s ≠ .detach) :
    Alike m n (p.step s).1 (q.step s).1
      ∧ Told m n (increments (p.step s).2) (increments (q.step s).2) := by
  cases s with
  | tick => exact h.tick
  | work => exact h.work keys
  | detach => exact absurd rfl kept
  | arrive | cancel | expire =>
      obtain ⟨same, writer⟩ := h
      rw [same]
      exact ⟨⟨rfl, writer⟩, .refl []⟩

theorem Alike.run (h : Alike m n p q) (keys : m.SameKeys n) {signals : List Signal}
    (kept : .detach ∉ signals) :
    Told m n (increments (p.run signals).2) (increments (q.run signals).2) := by
  induction signals generalizing p q with
  | nil => exact .refl []
  | cons s rest ih =>
      obtain ⟨first, unkept⟩ := not_or.mp (mt List.mem_cons.mpr kept)
      obtain ⟨next, told⟩ := h.step keys (Ne.symm first)
      simp only [Processor.run, increments_append]
      exact told.append (ih next unkept)

end Processor

/-- Replies made from one stream with maps of the same placeholders differ in nothing but the
    values. -/
theorem reply_told (keys : m.SameKeys n) (message : String) (steps : List StreamStep)
    (c : StreamConfig) (cancelAt : Option Nat) :
    Told m n (increments (reply message steps m c cancelAt))
      (increments (reply message steps n c cancelAt)) := by
  let t : Schedule.Timing := ⟨c.flushIntervalMs, c.streamTimeoutSecs * 1000, cancelAt⟩
  let r : MaskRules := ⟨m, c.maskLookahead, c.maskMaxSpan⟩
  have alike : Processor.Alike m n (.start message r (.ofMillis t.limit))
      (.start message (r.revalued n) (.ofMillis t.limit)) := ⟨rfl, .new message r⟩
  exact alike.run keys (Schedule.detach_notMem_signals t 0 steps)

end NoteAssistant
