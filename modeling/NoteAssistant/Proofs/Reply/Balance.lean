import NoteAssistant.Proofs.Reply.Reference
import NoteAssistant.Proofs.Reply.Soundness

/-! # What is sent and what is owed

At every moment the units of text that a writer has sent, together with those that it still
owes (`Writer.owedUnits`), are the units of the reply. A flush takes whole units off the
front, and a part of a token is owed before it is taken, so nothing is lost, made up or cut
in two (`Processor.Runs.delivers`).
-/

namespace NoteAssistant

open Reference

/-! ## Increments that are made of whole units -/

def Increment.text? : Increment → Option (List Char)
  | text s => some s.toList
  | _ => none

/-- The texts among increments. -/
def texts (is : List Increment) : List (List Char) := is.filterMap Increment.text?

@[simp] theorem texts_append (is js : List Increment) : texts (is ++ js) = texts is ++ texts js :=
  List.filterMap_append

theorem flatten_texts (is : List Increment) : (texts is).flatten = written is := by
  induction is with
  | nil => rfl
  | cons i is ih =>
      cases i with
      | text s => exact congrArg (s.toList ++ ·) ih
      | finish | usage | error | cancelled | done => exact ih

/-- Each text of some increments is made of whole units from the front of `us`, and `left`
    is not sent. -/
def Delivers (us : List (List Char)) (is : List Increment) (left : List (List Char)) : Prop :=
  ∃ groups : List (List (List Char)),
    texts is = groups.map List.flatten ∧ groups.flatten ++ left = us

namespace Delivers

variable {us mid left : List (List Char)} {is js : List Increment}

theorem silent (quiet : texts is = []) (us : List (List Char)) : Delivers us is us :=
  ⟨[], quiet, rfl⟩

theorem append (first : Delivers us is mid) (second : Delivers mid js left) :
    Delivers us (is ++ js) left := by
  obtain ⟨groups, sent, rfl⟩ := first
  obtain ⟨more, later, rfl⟩ := second
  refine ⟨groups ++ more, ?_, ?_⟩
  · rw [texts_append, sent, later, List.map_append]
  · rw [List.flatten_append, List.append_assoc]

theorem followed (h : Delivers us is left) (more : List (List Char)) :
    Delivers (us ++ more) is (left ++ more) := by
  obtain ⟨groups, sent, rfl⟩ := h
  exact ⟨groups, sent, (List.append_assoc _ _ _).symm⟩

theorem written_append (h : Delivers us is left) : written is ++ left.flatten = us.flatten := by
  obtain ⟨groups, sent, rfl⟩ := h
  rw [← flatten_texts, sent, List.flatten_append, List.flatten_flatten]

end Delivers

/-- What has been gathered is sent in one text. Only empty units may be left. -/
theorem delivers_textIncrements (us : List (List Char)) :
    ∃ left, left.flatten = [] ∧ Delivers us (Writer.textIncrements us.flatten) left := by
  cases gathered : us.flatten with
  -- The values that have been gathered may all be empty, and then nothing is sent for them.
  | nil => exact ⟨us, gathered, .silent rfl us⟩
  | cons c cs =>
      refine ⟨[], rfl, [us], ?_, by simp⟩
      simp [Writer.textIncrements, texts, Increment.text?, gathered]

/-! ## The reference from any point on -/

namespace Reference

/-- What is still to come of the block of reasoning. -/
def restOfBlock : Thinking → List Piece → List Char
  | .none, ps => block ps
  | .opened, ps => inLine ((thoughts ps).flatMap Piece.thought) ++ Writer.thinkClose
  | .closed, _ => []

section Block

variable (t : List Char) (ps : List Piece)

@[simp] theorem inLine_nil : inLine [] = [] := rfl

@[simp] theorem inLine_append (a b : List Char) : inLine (a ++ b) = inLine a ++ inLine b :=
  List.flatMap_append

theorem replaceAll_newline (text : List Char) :
    Text.replaceAll ['\n'] Writer.lineBreak text = inLine text := by
  change Text.replaceAll.go Writer.lineBreak '\n' [] text = inLine text
  induction text with
  | nil => simp [Text.replaceAll.go.eq_def, inLine]
  | cons c text ih =>
      rw [Text.replaceAll.go.eq_def]
      dsimp only
      split
      case h_1 rest found =>
        obtain ⟨rfl, rfl⟩ : '\n' = c ∧ text = rest := by simpa [Text.after?] using found
        simpa [inLine] using ih
      case h_2 missing =>
        have other : c ≠ '\n' := by simpa [Text.after?, eq_comm] using missing
        simpa [inLine, other] using ih

@[simp] theorem restOfBlock_reasoning_none :
    restOfBlock .none (.reasoning t :: ps)
      = Writer.thinkOpen ++ inLine t ++ restOfBlock .opened ps := by
  simp [restOfBlock, block, blockThoughts, thoughts, Piece.isContent, Piece.isReasoning,
    Piece.isCut, Piece.thought]

@[simp] theorem restOfBlock_reasoning_opened :
    restOfBlock .opened (.reasoning t :: ps) = inLine t ++ restOfBlock .opened ps := by
  simp [restOfBlock, thoughts, Piece.isContent, Piece.isCut, Piece.thought]

@[simp] theorem restOfBlock_cut_none :
    restOfBlock .none (.cut :: ps) = restOfBlock .none ps := by
  simp [restOfBlock, block, blockThoughts, Piece.isContent, Piece.isReasoning]

@[simp] theorem restOfBlock_content_none : restOfBlock .none (.content t :: ps) = [] := by
  simp [restOfBlock, block, blockThoughts, Piece.isContent]

@[simp] theorem restOfBlock_content_opened :
    restOfBlock .opened (.content t :: ps) = Writer.thinkClose := by
  simp [restOfBlock, thoughts, Piece.isContent]

@[simp] theorem restOfBlock_cut_opened :
    restOfBlock .opened (.cut :: ps) = Writer.thinkClose := by
  simp [restOfBlock, thoughts, Piece.isContent, Piece.isCut]

@[simp] theorem restOfBlock_nil_none : restOfBlock .none [] = [] := by
  simp [restOfBlock, block, blockThoughts]

@[simp] theorem restOfBlock_nil_opened : restOfBlock .opened [] = Writer.thinkClose := by
  simp [restOfBlock, thoughts]

@[simp] theorem restOfBlock_closed : restOfBlock .closed ps = [] := rfl

end Block

section Answer

variable (held : List Char) (ps : List Piece)

/-- What is still to be read of the answer, when some text is held back. -/
def segmentsFrom (held : List Char) (ps : List Piece) : List (List Char) :=
  (segments ps).modifyHead (held ++ ·)

theorem segments_cons_of_not_cut {p : Piece} (h : p.isCut = false) :
    segments (p :: ps) = segmentsFrom p.said ps := by
  simp only [segments, segmentsFrom, List.splitOnP_cons_eq_if_modifyHead, h, Bool.false_eq_true,
    if_false]
  cases ps.splitOnP Piece.isCut <;> simp

theorem segments_ne_nil : segments ps ≠ [] := by
  simp [segments, List.splitOnP_ne_nil]

@[simp] theorem segmentsFrom_nil_held : segmentsFrom [] ps = segments ps := by
  unfold segmentsFrom
  cases segments ps <;> rfl

@[simp] theorem segmentsFrom_nil : segmentsFrom held [] = [held] := by
  simp [segmentsFrom, segments]

theorem segmentsFrom_segmentsFrom (text : List Char) :
    (segmentsFrom text ps).modifyHead (held ++ ·) = segmentsFrom (held ++ text) ps := by
  unfold segmentsFrom
  cases segments ps <;> simp

@[simp] theorem segmentsFrom_reasoning (t : List Char) :
    segmentsFrom held (.reasoning t :: ps) = segmentsFrom held ps := by
  rw [segmentsFrom, segments_cons_of_not_cut ps (p := .reasoning t) rfl,
    segmentsFrom_segmentsFrom]
  exact congrArg (segmentsFrom · ps) (List.append_nil held)

@[simp] theorem segmentsFrom_content (t : List Char) :
    segmentsFrom held (.content t :: ps) = segmentsFrom (held ++ t) ps := by
  rw [segmentsFrom, segments_cons_of_not_cut ps (p := .content t) rfl,
    segmentsFrom_segmentsFrom]
  rfl

@[simp] theorem segmentsFrom_cut : segmentsFrom held (.cut :: ps) = held :: segments ps := by
  simp [segmentsFrom, segments, List.splitOnP_cons_eq_if_modifyHead, Piece.isCut]

/-- Scanning a piece of the answer releases the beginning of what is to come. -/
theorem push_segmentsFrom {r : MaskRules} (roomy : r.Roomy) {s : MaskState} (h : s.Holds r)
    (text : List Char) :
    ∃ us : List (List Char), us.flatten = (r.push s text).2 ∧ ∀ ps,
      us ++ (segmentsFrom (r.push s text).1.held ps).flatMap r.units
        = (segmentsFrom (s.held ++ text) ps).flatMap r.units := by
  obtain ⟨us, released, whole⟩ := MaskRules.push_units roomy h text
  refine ⟨us, released, fun ps => ?_⟩
  unfold segmentsFrom
  cases cut : segments ps with
  | nil => exact absurd cut (segments_ne_nil ps)
  | cons segment later =>
      simp only [List.modifyHead_cons, List.flatMap_cons, ← List.append_assoc]
      rw [whole]

end Answer

end Reference

/-! ## What a writer owes -/

namespace Writer

/-- The units that a writer has yet to send, when those in `us` are gathered and it is still
    to take these parts. -/
def owedUnits (w : Writer) (us : List (List Char)) (parts : List Token.Part) : List (List Char) :=
  let ps := Piece.ofParts w.finished parts
  us ++ (letters (restOfBlock w.thinking ps)
    ++ (segmentsFrom w.scan.held ps).flatMap w.rules.units)

theorem buffer_closeThinking (w : Writer) :
    w.closeThinking.buffer = w.buffer ++ restOfBlock w.thinking [] := by
  unfold closeThinking
  cases thinking : w.thinking <;> simp

theorem closeThinking_thinking (w : Writer) :
    w.closeThinking.thinking = if w.thinking = .none then .none else .closed := by
  unfold closeThinking
  cases thinking : w.thinking <;> simp [thinking]

section Owed

variable {w : Writer} {us : List (List Char)}

/-- The units of all text that has not been sent. -/
def gatheredUnits (w : Writer) (us : List (List Char)) : List (List Char) :=
  us ++ letters (restOfBlock w.thinking []) ++ letters w.scan.held

theorem flatten_gatheredUnits (same : us.flatten = w.buffer) :
    (w.gatheredUnits us).flatten = w.gathered := by
  simp [gatheredUnits, gathered, buffer_closeThinking, same]

theorem owedUnits_nil (roomy : w.rules.Roomy) (h : w.Sound) :
    w.owedUnits us [] = w.gatheredUnits us := by
  simp [owedUnits, gatheredUnits, Piece.ofParts, MaskRules.units_held roomy h.holds]

/-- Up to a boundary just the text that has been gathered is owed. -/
theorem gathered_owedUnits (roomy : w.rules.Roomy) (h : w.Sound) (ps : List Piece) :
    us ++ (letters (restOfBlock w.thinking (.cut :: ps))
        ++ (segmentsFrom w.scan.held (.cut :: ps)).flatMap w.rules.units)
      = w.gatheredUnits us
        ++ (letters (restOfBlock w.drained.thinking ps)
          ++ (segments ps).flatMap w.rules.units) := by
  simp only [gatheredUnits, drained, closeThinking_thinking, segmentsFrom_cut,
    List.flatMap_cons, MaskRules.units_held roomy h.holds]
  cases thinking : w.thinking with
  | none =>
      have empty : w.scan.held = [] := by rw [h.quiet (by simp [thinking])]; rfl
      simp [empty]
  | opened | closed => simp

/-- At a boundary all text that has been gathered is sent, and something without text. -/
theorem boundary_delivers (roomy : w.rules.Roomy) (h : w.Sound) (same : us.flatten = w.buffer)
    {last : List Increment} (quiet : texts last = []) :
    ∃ left : List (List Char), left.flatten = [] ∧ ∀ ps,
      Delivers
        (us ++ (letters (restOfBlock w.thinking (.cut :: ps))
          ++ (segmentsFrom w.scan.held (.cut :: ps)).flatMap w.rules.units))
        (textIncrements w.gathered ++ last)
        (left ++ (letters (restOfBlock w.drained.thinking ps)
          ++ (segments ps).flatMap w.rules.units)) := by
  obtain ⟨left, empty, sent⟩ := delivers_textIncrements (w.gatheredUnits us)
  rw [flatten_gatheredUnits same] at sent
  refine ⟨left, empty, fun ps => ?_⟩
  rw [gathered_owedUnits roomy h]
  exact (sent.followed _).append (.silent quiet _)

theorem texts_heldUsage (w : Writer) : texts w.heldUsage = [] := by
  unfold heldUsage
  cases w.pendingUsage <;> rfl

theorem pushReasoning_owedUnits (same : us.flatten = w.buffer) (text : String) :
    ∃ vs : List (List Char), vs.flatten = (w.pushReasoning text).buffer ∧
      ∀ parts, (w.pushReasoning text).owedUnits vs parts =
        w.owedUnits us (.reasoning text :: parts) := by
  simp only [owedUnits, pushReasoning, replaceAll_newline, Piece.ofParts, segmentsFrom_reasoning]
  cases thinking : w.thinking with
  | none =>
      refine ⟨us ++ letters (thinkOpen ++ inLine text.toList), ?_, fun parts => ?_⟩
      · simp [same]
      · simp
  | opened =>
      refine ⟨us ++ letters (inLine text.toList), ?_, fun parts => ?_⟩
      · simp [same]
      · simp
  | closed => exact ⟨us, same, fun parts => by simp [thinking]⟩

theorem pushContent_owedUnits (roomy : w.rules.Roomy) (h : w.Sound) (same : us.flatten = w.buffer)
    (text : String) :
    ∃ vs : List (List Char), vs.flatten = (w.pushContent text).buffer ∧
      ∀ parts, (w.pushContent text).owedUnits vs parts =
        w.owedUnits us (.content text :: parts) := by
  obtain ⟨released, scanned, whole⟩ := push_segmentsFrom roomy h.holds text.toList
  refine ⟨us ++ letters (restOfBlock w.thinking []) ++ released, ?_, fun parts => ?_⟩
  · simp [pushContent, buffer_closeThinking, same, scanned]
  · have closes (ps : List Piece) :
        restOfBlock w.thinking (.content text.toList :: ps) = restOfBlock w.thinking [] := by
      cases w.thinking <;> simp
    simp only [owedUnits, pushContent, closeThinking_scan, closeThinking_rules,
      closeThinking_finished, Piece.ofParts, segmentsFrom_content, closes, restOfBlock_closed,
      letters_nil, List.nil_append, List.append_assoc, whole]

/-- What a part of a token makes the writer send was owed before, and what it leaves is
    owed after. -/
theorem told_delivers (roomy : w.rules.Roomy) (h : w.Sound) (same : us.flatten = w.buffer)
    (part : Token.Part) :
    ∃ vs : List (List Char), vs.flatten = (w.after part).buffer ∧
      ∀ parts, Delivers (w.owedUnits us (part :: parts)) (w.told part)
        ((w.after part).owedUnits vs parts) := by
  cases part with
  | reasoning text =>
      obtain ⟨vs, gathered, equal⟩ := pushReasoning_owedUnits same text
      exact ⟨vs, gathered, fun parts => equal parts ▸ .silent rfl _⟩
  | content text =>
      obtain ⟨vs, gathered, equal⟩ := pushContent_owedUnits roomy h same text
      exact ⟨vs, gathered, fun parts => equal parts ▸ .silent rfl _⟩
  | finish reason =>
      have quiet : texts ([.finish reason] ++ w.heldUsage) = [] := w.texts_heldUsage
      obtain ⟨left, empty, sent⟩ := boundary_delivers roomy h same quiet
      refine ⟨left, empty, fun parts => ?_⟩
      simpa [owedUnits, after, told, drained, MaskState.held, Piece.ofParts]
        using sent (Piece.ofParts true parts)
  | usage model usage =>
      by_cases finished : w.finished = true
      · have quiet : texts [.usage model usage] = [] := rfl
        obtain ⟨left, empty, sent⟩ := boundary_delivers roomy h same quiet
        refine ⟨left, ?_, fun parts => ?_⟩
        · simpa [after, finished, drained] using empty
        · simpa [owedUnits, after, told, drained, MaskState.held, finished, Piece.ofParts]
            using sent (Piece.ofParts true parts)
      · refine ⟨us, ?_, fun parts => ?_⟩
        · simpa [after, finished] using same
        · simp only [owedUnits, after, told, finished, Piece.ofParts, if_false, Bool.false_eq_true]
          exact .silent rfl _

end Owed

end Writer

/-! ## What a reply owes -/

namespace Processor

/-- The gathered text of a reply that goes on. -/
def unsent (p : Processor) : List Char :=
  match p.stage with
  | .ended _ => []
  | _ => p.writer.buffer

/-- The units that a reply has yet to send when those in `us` are gathered. -/
def owedUnits (p : Processor) (us : List (List Char)) (parts : List Token.Part) :
    List (List Char) :=
  match p.stage with
  | .ended _ => us
  | _ => p.writer.owedUnits us parts

section Busy

variable {p : Processor} (busy : ∀ e, p.stage ≠ .ended e)
include busy

theorem unsent_of_busy : p.unsent = p.writer.buffer := by
  unfold unsent
  split
  case h_1 e stage => exact absurd stage (busy e)
  case h_2 => rfl

theorem owedUnits_of_busy (us : List (List Char)) (parts : List Token.Part) :
    p.owedUnits us parts = p.writer.owedUnits us parts := by
  unfold owedUnits
  split
  case h_1 e stage => exact absurd stage (busy e)
  case h_2 => rfl

end Busy

theorem texts_terminal {e : Ending} {i : Increment} (last : e.terminal? = some i) :
    texts [i] = [] := by
  cases e <;> simp [Ending.terminal?] at last <;> subst last <;> rfl

/-- Every step takes whole units off the front of what is owed. -/
theorem Moves.delivers {p q : Processor} {s : Signal} {is : List Increment}
    (move : Moves p s q is) (roomy : p.writer.rules.Roomy) (h : p.Sound)
    {us : List (List Char)} (same : us.flatten = p.unsent) :
    ∃ vs : List (List Char), vs.flatten = q.unsent ∧
      ∀ parts, ((∃ e, q.stage = .ended e) → parts = []) →
        Delivers (p.owedUnits us ((p.applies s).toList ++ parts)) is (q.owedUnits vs parts) := by
  cases move with
  | flushed busy idle =>
      rw [unsent_of_busy busy] at same
      obtain ⟨left, empty, sent⟩ := delivers_textIncrements us
      rw [same] at sent
      refine ⟨left, ?_, fun parts _ => ?_⟩
      · rw [unsent_of_busy (by exact busy)]
        exact empty
      · rw [owedUnits_of_busy busy, owedUnits_of_busy (by exact busy)]
        exact sent.followed _
  | deferred | arrived | cancelled | expired =>
      exact ⟨us, same, fun parts _ => .silent rfl _⟩
  | looked stage | took stage | stopped stage | completed stage | reported _ stage
  | rested _ stage =>
      simp only [unsent, stage] at same
      simp only [unsent, owedUnits, applies, stage]
      exact ⟨us, same, fun parts _ => .silent rfl _⟩
  | applied part parts' error stage =>
      simp only [unsent, stage] at same
      obtain ⟨vs, gathered, sent⟩ := Writer.told_delivers roomy h.writer same part
      refine ⟨vs, gathered, fun parts _ => ?_⟩
      simp only [owedUnits, applies, stage]
      exact sent parts
  | closed e terminal stage last =>
      simp only [unsent, stage] at same
      obtain ⟨left, empty, sent⟩ := delivers_textIncrements (p.writer.gatheredUnits us)
      rw [Writer.flatten_gatheredUnits same] at sent
      refine ⟨left, empty, fun parts ended => ?_⟩
      obtain rfl := ended ⟨e, rfl⟩
      have quiet : texts (p.writer.heldUsage ++ [terminal]) = [] := by
        rw [texts_append, p.writer.texts_heldUsage, texts_terminal last]
        rfl
      simp only [owedUnits, applies, stage]
      exact Writer.owedUnits_nil roomy h.writer ▸ sent.append (.silent quiet left)
  | abandoned e stage silent =>
      cases e with
      | detached => exact absurd stage h.received
      | done | failed | cancelled => simp [Ending.terminal?] at silent

theorem applied_of_over {p : Processor} {e : Ending} (ended : p.stage = .ended e)
    (signals : List Signal) : p.applied signals = [] := by
  induction signals generalizing p with
  | nil => rfl
  | cons s rest ih =>
      have idle : p.applies s = none := by cases s <;> simp [applies, ended]
      rw [applied, idle, ih (step_of_over ended s)]
      rfl

/-- What is sent and what is owed at the end make up what was owed at the beginning, and no
    unit is cut in two. -/
theorem Runs.delivers {p q : Processor} {signals : List Signal} {is : List Increment}
    (runs : Runs p signals q is) (roomy : p.writer.rules.Roomy) (h : p.Sound)
    {us : List (List Char)} (same : us.flatten = p.unsent) :
    ∃ vs : List (List Char), vs.flatten = q.unsent ∧
      ∀ parts, ((∃ e, q.stage = .ended e) → parts = []) →
        Delivers (p.owedUnits us (p.applied signals ++ parts)) is (q.owedUnits vs parts) := by
  -- Each step starts from what the one before it has gathered, hence the generalization.
  induction runs generalizing us with
  | nil p => exact ⟨us, same, fun parts _ => .silent rfl _⟩
  | @cons p q s rest _ _ move runs ih =>
      have rules := move.continues.rules
      obtain ⟨mid, first, now⟩ := move.delivers roomy h same
      obtain ⟨vs, last, later⟩ := ih (rules ▸ roomy) (move.sound h) first
      refine ⟨vs, last, fun parts ended => ?_⟩
      have settled : (∃ e, (p.step s).1.stage = .ended e) →
          (p.step s).1.applied rest ++ parts = [] := by
        rintro ⟨e, stage⟩
        rw [applied_of_over stage, ended ⟨e, runs.stays_ended stage⟩]
        rfl
      have whole := (now _ settled).append (later parts ended)
      rwa [← List.append_assoc] at whole

end Processor

end NoteAssistant
