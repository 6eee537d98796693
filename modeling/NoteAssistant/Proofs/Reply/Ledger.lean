import NoteAssistant.Proofs.Reply.Envelope
import NoteAssistant.Proofs.Reply.Flushing
import NoteAssistant.Proofs.Reply.Reading

/-! # The accounts of a reply

Every increment that is no text stands at a place in the text, and `marks` lists them with
all that is written before them. `Reference.ledger` says from the parts of tokens alone which
finishes and which usage are announced, each behind the whole reading so far. The marks of a
reply are its ledger, and at the end the usage that is still awaited and the last increment
(`Processor.accounts_balance`).
-/

namespace NoteAssistant

open Reference

/-! ## Places in the text -/

/-- The increments that are no text, each with all text in front of it. -/
def marks (before : List Char) : List Increment → List (List Char × Increment)
  | [] => []
  | i :: is =>
    match i.text? with
    | some text => marks (before ++ text) is
    | none => (before, i) :: marks before is

theorem Increment.shown_of_text {i : Increment} {text : List Char} (h : i.text? = some text) :
    i.shown = text := by
  cases i <;> simp_all [text?, shown]

theorem Increment.shown_of_mark {i : Increment} (h : i.text? = none) : i.shown = [] := by
  cases i <;> simp_all [text?, shown]

theorem marks_append (before : List Char) (is js : List Increment) :
    marks before (is ++ js) = marks before is ++ marks (before ++ written is) js := by
  induction is generalizing before with
  | nil => simp [marks]
  | cons i is ih =>
      simp only [List.cons_append, marks, written_cons]
      cases shape : i.text? with
      | some text => simp [ih, Increment.shown_of_text shape]
      | none => simp [ih, Increment.shown_of_mark shape]

theorem marks_of_silent (before : List Char) {is : List Increment} (silent : texts is = []) :
    marks before is = is.map (before, ·) := by
  induction is generalizing before with
  | nil => rfl
  | cons i is ih =>
      cases shape : i.text? with
      | some text => simp [texts, shape] at silent
      | none =>
          have rest : texts is = [] := by simpa [texts, shape] using silent
          simp only [marks, shape, List.map_cons, ih before rest]

theorem marks_textIncrements (before text : List Char) :
    marks before (Writer.textIncrements text) = [] := by
  cases text <;> simp [Writer.textIncrements, marks, Increment.text?]

/-- What is sent at a boundary stands behind all text that has been gathered. -/
theorem marks_boundary (before text : List Char) {last : List Increment}
    (silent : texts last = []) :
    marks before (Writer.textIncrements text ++ last) = last.map (before ++ text, ·) := by
  rw [marks_append, marks_textIncrements, Writer.written_textIncrements,
    marks_of_silent _ silent, List.nil_append]

/-! ## What the parts of tokens announce -/

namespace Token.Part

def isFinish : Token.Part → Bool
  | finish _ => true
  | _ => false

def report? : Token.Part → Option Increment
  | .usage model tokens => some (.usage model tokens)
  | _ => none

end Token.Part

namespace Reference

/-- The usage that has been reported and not been announced: before any finish the latest
    one, and none after it. -/
def awaited (before : List Token.Part) : List Increment :=
  if before.any Token.Part.isFinish then []
  else (before.filterMap Token.Part.report?).getLast?.toList

/-- What a part of a token announces when it comes after others. -/
def announced (before : List Token.Part) : Token.Part → List Increment
  | .finish reason => .finish reason :: awaited before
  | .usage model usage =>
    if before.any Token.Part.isFinish then [.usage model usage] else []
  | _ => []

/-- All that is announced, each behind the whole reading up to the part that announces it. -/
def ledger (r : MaskRules) (before : List Token.Part) :
    List Token.Part → List (List Char × Increment)
  | [] => []
  | part :: parts =>
    (announced before part).map (reading r (before ++ [part]), ·)
      ++ ledger r (before ++ [part]) parts

theorem ledger_append (r : MaskRules) (before parts more : List Token.Part) :
    ledger r before (parts ++ more) =
      ledger r before parts ++ ledger r (before ++ parts) more := by
  induction parts generalizing before with
  | nil => simp [ledger]
  | cons part parts ih => simp [ledger, ih]

theorem ledger_concat (r : MaskRules) (parts : List Token.Part) (part : Token.Part) :
    ledger r [] (parts ++ [part]) =
      ledger r [] parts ++ (announced parts part).map (reading r (parts ++ [part]), ·) := by
  simp [ledger_append, ledger]

end Reference

/-! ## The books of a writer -/

namespace Writer

theorem texts_held_append (w : Writer) {last : List Increment} (silent : texts last = []) :
    texts (w.heldUsage ++ last) = [] := by
  rw [texts_append, w.texts_heldUsage, silent]
  rfl

theorem after_finished (w : Writer) (part : Token.Part) :
    (w.after part).finished = (w.finished || part.isFinish) := by
  cases part with
  | reasoning text =>
      simp only [after, pushReasoning]
      split <;> simp [Token.Part.isFinish]
  | content text => simp [after, pushContent, Token.Part.isFinish]
  | finish reason => simp [after, Token.Part.isFinish]
  | usage model usage =>
      simp only [after]
      split <;> simp [drained, Token.Part.isFinish]

/-- What a writer has sent for these parts, and what it is left with. -/
structure Balanced (w : Writer) (r : MaskRules) (parts : List Token.Part)
    (sent : List Increment) : Prop where
  sound : w.Sound
  finished : w.finished = parts.any Token.Part.isFinish
  awaits : w.heldUsage = awaited parts
  marked : marks [] sent = ledger r [] parts
  /-- What has been written and what is to come are what is to be read. -/
  reads : ∀ more, written sent ++ w.toCome more = reading r (parts ++ more)

namespace Balanced

variable {w : Writer} {r : MaskRules} {parts : List Token.Part} {sent : List Increment}

theorem start (message : String) (r : MaskRules) : (new message r).Balanced r [] [] where
  sound := .new message r
  finished := rfl
  awaits := rfl
  marked := rfl
  reads := toCome_new message r

theorem flushed (h : w.Balanced r parts sent) :
    ({ w with buffer := [] }.sendAll (textIncrements w.buffer)).writer.Balanced r parts
      (sent ++ textIncrements w.buffer) where
  sound := ⟨h.sound.holds, h.sound.quiet⟩
  finished := h.finished
  awaits := h.awaits
  marked := by rw [marks_append, marks_textIncrements, List.append_nil, h.marked]
  reads := by
    intro more
    rw [written_append, written_textIncrements, List.append_assoc, ← h.reads more]
    rfl

/-- What has been written and what has been gathered are all that is to be read so far. -/
theorem read (h : w.Balanced r parts sent) : written sent ++ w.gathered = reading r parts := by
  rw [← toCome_nil, h.reads, List.append_nil]

theorem marks_told (h : w.Balanced r parts sent) (part : Token.Part) :
    marks (written sent) (w.told part) =
      (announced parts part).map (reading r (parts ++ [part]), ·) := by
  have place : part.isText = false →
      reading r (parts ++ [part]) = written sent ++ w.gathered := by
    intro silent
    rw [← h.reads, w.toCome_silent silent]
  cases part with
  | reasoning | content => rfl
  | finish reason =>
      have silent : texts ([.finish reason] ++ w.heldUsage) = [] := w.texts_heldUsage
      rw [place rfl, told, marks_boundary _ _ silent, h.awaits]
      rfl
  | usage model usage =>
      simp only [told, announced, h.finished]
      split
      case isTrue => rw [place rfl, marks_boundary _ _ rfl]
      case isFalse => rfl

theorem awaits_after (h : w.Balanced r parts sent) (part : Token.Part) :
    (w.after part).heldUsage = awaited (parts ++ [part]) := by
  have held := h.awaits
  cases part with
  | reasoning text =>
      have same : (w.after (.reasoning text)).pendingUsage = w.pendingUsage := by
        simp only [after, pushReasoning]
        split <;> rfl
      simpa [heldUsage, same, awaited, Token.Part.isFinish, Token.Part.report?] using held
  | content text =>
      have same : (w.after (.content text)).pendingUsage = w.pendingUsage := by
        simp [after, pushContent]
      simpa [heldUsage, same, awaited, Token.Part.isFinish, Token.Part.report?] using held
  | finish reason => simp [heldUsage, after, awaited, Token.Part.isFinish]
  | usage model usage =>
      by_cases finished : parts.any Token.Part.isFinish = true
      · have none : w.heldUsage = [] := by rw [held, awaited, if_pos finished]
        have same : (w.after (.usage model usage)).heldUsage = w.heldUsage := by
          simp [heldUsage, after, h.finished, finished]
        rw [same, none, awaited, if_pos (by simp [finished])]
      · simp [heldUsage, after, h.finished, finished, awaited, Token.Part.isFinish,
          Token.Part.report?]

theorem after (h : w.Balanced r parts sent) (part : Token.Part) :
    ((w.after part).sendAll (w.told part)).writer.Balanced r (parts ++ [part])
      (sent ++ w.told part) where
  sound := sendAll_sound (after_sound h.sound part) _
  finished := by
    rw [List.any_append, ← h.finished]
    simpa [sendAll] using w.after_finished part
  awaits := h.awaits_after part
  marked := by
    rw [marks_append, List.nil_append, h.marks_told, h.marked, ledger_concat]
  reads := by
    intro more
    rw [List.append_assoc, List.singleton_append, ← h.reads, toCome_cons h.sound,
      written_append, List.append_assoc]
    rfl

/-- At the end the usage that is still awaited and the last increment stand behind all text. -/
theorem marks_close (h : w.Balanced r parts sent) {terminal : Increment}
    (silent : texts [terminal] = []) :
    marks [] (sent ++ (textIncrements w.gathered ++ (w.heldUsage ++ [terminal]))) =
      ledger r [] parts ++ (awaited parts ++ [terminal]).map (reading r parts, ·) := by
  rw [marks_append, List.nil_append, marks_boundary _ _ (w.texts_held_append silent), h.read,
    h.marked, h.awaits]

theorem written_close (h : w.Balanced r parts sent) {terminal : Increment}
    (silent : texts [terminal] = []) :
    written (sent ++ (textIncrements w.gathered ++ (w.heldUsage ++ [terminal])))
      = reading r parts := by
  rw [written_append, written_boundary _ (w.texts_held_append silent), h.read]

end Balanced

end Writer

/-! ## The books of a reply -/

namespace Processor

/-- The books of a reply that is over. -/
structure Closed (r : MaskRules) (parts : List Token.Part) (sent : List Increment) (e : Ending) :
    Prop where
  marked : ∃ terminal, e.terminal? = some terminal ∧
    marks [] sent = ledger r [] parts ++ (awaited parts ++ [terminal]).map (reading r parts, ·)
  reads : written sent = reading r parts

/-- What has been sent of a reply for the parts that have been applied. -/
def Balanced (p : Processor) (r : MaskRules) (parts : List Token.Part) (sent : List Increment) :
    Prop :=
  match p.stage with
  | .ended e => Closed r parts sent e
  | _ => p.writer.Balanced r parts sent

theorem balanced_of_busy {p : Processor} (busy : ∀ e, p.stage ≠ .ended e) {r : MaskRules}
    {parts : List Token.Part} {sent : List Increment} :
    p.Balanced r parts sent ↔ p.writer.Balanced r parts sent := by
  unfold Balanced
  split
  case h_1 e stage => exact absurd stage (busy e)
  case h_2 => rfl

theorem Moves.balanced {p q : Processor} {s : Signal} {is sent : List Increment}
    {r : MaskRules} {parts : List Token.Part} (move : Moves p s q is)
    (received : p.stage ≠ .closing .detached) (h : p.Balanced r parts sent) :
    q.Balanced r (parts ++ (p.applies s).toList) (sent ++ is) := by
  cases move with
  | flushed busy idle =>
      rw [balanced_of_busy busy] at h
      simpa [balanced_of_busy, busy, applies] using h.flushed
  | deferred | arrived | cancelled | expired =>
      simp only [applies, Option.toList_none, List.append_nil]
      exact h
  | looked stage | took stage | stopped stage | completed stage | reported _ stage
  | rested _ stage =>
      simp only [Balanced, stage] at h
      simpa [Balanced, applies, stage] using h
  | applied part rest error stage =>
      simp only [Balanced, stage] at h
      simpa [Balanced, applies, stage] using h.after part
  | closed e terminal stage last =>
      simp only [Balanced, stage] at h
      have silent := texts_terminal last
      simp only [Balanced, applies, stage, Option.toList_none, List.append_nil]
      exact ⟨⟨terminal, last, h.marks_close silent⟩, h.written_close silent⟩
  | abandoned e stage silent =>
      cases e with
      | detached => exact absurd stage received
      | done | failed | cancelled => simp [Ending.terminal?] at silent

theorem Runs.balanced {p q : Processor} {signals : List Signal} {is sent : List Increment}
    {r : MaskRules} {parts : List Token.Part} (runs : Runs p signals q is) (sound : p.Sound)
    (h : p.Balanced r parts sent) :
    q.Balanced r (parts ++ p.applied signals) (sent ++ is) := by
  -- Each step adds its part to those applied before it, hence the generalization.
  induction runs generalizing parts sent with
  | nil p => simpa [applied] using h
  | cons move _ ih =>
      have next := ih (move.sound sound) (move.balanced sound.received h)
      simpa [applied] using next

end Processor

end NoteAssistant
