import NoteAssistant.Proofs.Mask.Passing
import NoteAssistant.Proofs.Reply.Balance

/-! # What is to be read, told from the parts of tokens

`Reference.reading` is all the text that some parts of tokens call for, with any lookahead
and span. What a writer has gathered and what is still to come make it up at every moment:
a part of a token moves text from what is to come to what has been told
(`Writer.toCome_cons`).
-/

namespace NoteAssistant

open Reference

namespace Reference

/-- The block and the answer, in which every segment between boundaries has passed the
    scanner. -/
def reading (r : MaskRules) (parts : List Token.Part) : List Char :=
  let ps := Piece.ofParts false parts
  block ps ++ (segments ps).flatMap (r.pass .idle)

/-- What is still to come of the answer, when the scanner has come to a state. -/
def answerFrom (r : MaskRules) (s : MaskState) (ps : List Piece) : List Char :=
  match segments ps with
  | [] => []
  | first :: later => r.pass s first ++ later.flatMap (r.pass .idle)

section Answer

variable (r : MaskRules) (s : MaskState) (ps : List Piece)

theorem answerFrom_idle : answerFrom r .idle ps = (segments ps).flatMap (r.pass .idle) := by
  unfold answerFrom
  cases segments ps <;> rfl

@[simp] theorem answerFrom_nil : answerFrom r s [] = s.held := by
  simp [answerFrom, segments]

@[simp] theorem answerFrom_reasoning (t : List Char) :
    answerFrom r s (.reasoning t :: ps) = answerFrom r s ps := by
  have same : segments (.reasoning t :: ps) = segments ps := by
    rw [segments_cons_of_not_cut ps (p := .reasoning t) rfl]
    exact segmentsFrom_nil_held ps
  simp only [answerFrom, same]

@[simp] theorem answerFrom_content (t : List Char) :
    answerFrom r s (.content t :: ps) =
      (r.push s t).2 ++ answerFrom r (r.push s t).1 ps := by
  have longer : segments (.content t :: ps) = segmentsFrom t ps :=
    segments_cons_of_not_cut ps (p := .content t) rfl
  unfold answerFrom
  rw [longer, segmentsFrom]
  cases cut : segments ps with
  | nil => exact absurd cut (segments_ne_nil ps)
  | cons first later => simp only [List.modifyHead_cons, r.pass_append, List.append_assoc]

@[simp] theorem answerFrom_cut :
    answerFrom r s (.cut :: ps) = s.held ++ answerFrom r .idle ps := by
  have split : segments (.cut :: ps) = [] :: segments ps :=
    (segmentsFrom_nil_held (.cut :: ps)).symm.trans (segmentsFrom_cut [] ps)
  rw [answerFrom_idle, answerFrom, split]
  simp only [r.pass_nil]

end Answer

end Reference

namespace Writer

/-- The text that a writer has not sent and that it is to send for these parts. -/
def toCome (w : Writer) (parts : List Token.Part) : List Char :=
  let ps := Piece.ofParts w.finished parts
  w.buffer ++ (restOfBlock w.thinking ps ++ answerFrom w.rules w.scan ps)

theorem toCome_nil (w : Writer) : w.toCome [] = w.gathered := by
  simp [toCome, gathered, buffer_closeThinking, Piece.ofParts]

theorem toCome_new (message : String) (r : MaskRules) (parts : List Token.Part) :
    (new message r).toCome parts = reading r parts := by
  simp [toCome, new, reading, answerFrom_idle, restOfBlock]

/-- Up to a boundary just the text that has been gathered is to come. -/
theorem toCome_cut {w : Writer} (h : w.Sound) (ps : List Piece) :
    w.buffer ++ (restOfBlock w.thinking (.cut :: ps) ++ answerFrom w.rules w.scan (.cut :: ps))
      = w.gathered ++ (restOfBlock w.drained.thinking ps ++ answerFrom w.rules .idle ps) := by
  simp only [gathered, buffer_closeThinking, drained, closeThinking_thinking, answerFrom_cut]
  cases thinking : w.thinking with
  | none =>
      have empty : w.scan.held = [] := by rw [h.quiet (by simp [thinking])]; rfl
      simp [empty]
  | opened | closed => simp

theorem written_boundary (text : List Char) {last : List Increment} (quiet : texts last = []) :
    written (textIncrements text ++ last) = text := by
  rw [written_append, written_textIncrements, ← flatten_texts, quiet]
  exact List.append_nil text

/-- What a part of a token makes the writer send, and what is to come after it, were to come
    before. -/
theorem toCome_cons {w : Writer} (h : w.Sound) (part : Token.Part) (parts : List Token.Part) :
    w.toCome (part :: parts) = written (w.told part) ++ (w.after part).toCome parts := by
  cases part with
  | reasoning text =>
      simp only [toCome, told, after, pushReasoning, replaceAll_newline, Piece.ofParts,
        answerFrom_reasoning, written_nil, List.nil_append]
      cases thinking : w.thinking <;> simp [thinking]
  | content text =>
      have closes (ps : List Piece) :
          restOfBlock w.thinking (.content text.toList :: ps) = restOfBlock w.thinking [] := by
        cases w.thinking <;> simp
      simp [toCome, told, after, pushContent, Piece.ofParts, closes, buffer_closeThinking]
  | finish reason =>
      have sent : written (w.told (.finish reason)) = w.gathered :=
        written_boundary _ w.texts_heldUsage
      have cut := toCome_cut h (Piece.ofParts true parts)
      rw [sent]
      simpa [toCome, after, drained, Piece.ofParts] using cut
  | usage model usage =>
      by_cases finished : w.finished = true
      · have sent : written (w.told (.usage model usage)) = w.gathered := by
          rw [told, if_pos finished]
          exact written_boundary _ rfl
        have cut := toCome_cut h (Piece.ofParts true parts)
        rw [sent]
        simpa [toCome, after, finished, drained, Piece.ofParts] using cut
      · simp [told, finished, toCome, after, Piece.ofParts]

end Writer

namespace Token.Part

/-- Whether a part brings text with it. -/
def isText : Token.Part → Bool
  | reasoning _ | content _ => true
  | _ => false

end Token.Part

namespace Writer

theorem toCome_silent (w : Writer) {part : Token.Part} (silent : part.isText = false) :
    w.toCome [part] = w.gathered := by
  have ends : restOfBlock w.thinking [.cut] = restOfBlock w.thinking [] := by
    cases w.thinking <;> simp
  cases part with
  | reasoning | content => cases silent
  | finish reason =>
      simp [toCome, gathered, buffer_closeThinking, Piece.ofParts, ends, MaskState.held]
  | usage model usage =>
      by_cases finished : w.finished = true
      · simp [toCome, gathered, buffer_closeThinking, Piece.ofParts, finished, ends,
          MaskState.held]
      · simp [toCome, gathered, buffer_closeThinking, Piece.ofParts, finished]

theorem toCome_of_silent {w : Writer} (h : w.Sound) {late : List Token.Part}
    (silent : ∀ part ∈ late, part.isText = false) : w.toCome late = w.gathered := by
  induction late generalizing w with
  | nil => exact w.toCome_nil
  | cons part late ih =>
      have first := silent part List.mem_cons_self
      have rest := ih (after_sound h part) fun p mem => silent p (List.mem_cons_of_mem part mem)
      rw [toCome_cons h, rest, ← toCome_nil, ← toCome_cons h, w.toCome_silent first]

theorem toCome_append_silent {w : Writer} (h : w.Sound) (parts : List Token.Part)
    {late : List Token.Part} (silent : ∀ part ∈ late, part.isText = false) :
    w.toCome (parts ++ late) = w.toCome parts := by
  induction parts generalizing w with
  | nil => rw [List.nil_append, toCome_of_silent h silent, toCome_nil]
  | cons part parts ih =>
      rw [List.cons_append, toCome_cons h, toCome_cons h, ih (after_sound h part)]

end Writer

/-- Boundaries and usage add nothing to what is to be read. -/
theorem Reference.reading_append_silent (r : MaskRules) (parts : List Token.Part)
    {late : List Token.Part} (silent : ∀ part ∈ late, part.isText = false) :
    reading r (parts ++ late) = reading r parts := by
  rw [← Writer.toCome_new "", ← Writer.toCome_new ""]
  exact Writer.toCome_append_silent (.new "" r) parts silent

end NoteAssistant
