import NoteAssistant.Proofs.Mask.Rescanning
import NoteAssistant.Proofs.Reply.Soundness

/-! # What a writer holds back

A writer and its scanner, as a scanner is told by rules of its own, after any operations on a new
writer (`Writer.Reaches`). In each of these states they agree (`Writer.Orderly`): what is held is
the beginning of a placeholder as the phase says, no longer than it may be, and nothing at all as
long as reasoning is taken.
-/

namespace NoteAssistant

namespace Writer

/-- A writer and its scanner after operations on a new writer, in any order. The receiver may be
    lost between them. -/
inductive Reaches (message : String) (r : MaskRules) : Writer → Scanner → Prop where
  | new : Reaches message r (Writer.new message r) .fresh
  | reasoning {w : Writer} {k : Scanner} (before : Reaches message r w k) (text : String) :
      Reaches message r (w.pushReasoning text) k
  | content {w : Writer} {k j : Scanner} {out : List Char} (before : Reaches message r w k)
      (text : String) (pushes : k.Pushes r text.toList j out) :
      Reaches message r (w.pushContent text) j
  | flush {w : Writer} {k : Scanner} (before : Reaches message r w k) :
      Reaches message r w.flush.writer k
  | finish {w : Writer} {k : Scanner} (before : Reaches message r w k) (reason : String) :
      Reaches message r (w.finish reason).writer .fresh
  | usage {w : Writer} {k : Scanner} (before : Reaches message r w k) (model : String)
      (usage : TokenUsage) :
      Reaches message r (w.usage model usage).writer (if w.finished then .fresh else k)
  | close {w : Writer} {k : Scanner} (before : Reaches message r w k) (terminal : Increment) :
      Reaches message r (w.close terminal).writer .fresh
  | detach {w : Writer} {k : Scanner} (before : Reaches message r w k) :
      Reaches message r w.detach k

/-- What holds of a writer and its scanner between two operations. -/
structure Orderly (r : MaskRules) (w : Writer) (k : Scanner) : Prop where
  scan : k = .ofState w.scan
  idle : k.phase = .idle ↔ k.held = []
  suspect : k.phase = .suspect → k.held ≠ [] ∧ k.held <+: maskPrefix ∧ k.held ≠ maskPrefix
  confirmed : k.phase = .confirmed → maskPrefix <+: k.held ∧ ']' ∉ k.held
  count : k.count = k.held.length
  bounded : k.count ≤ max 8 r.maxSpan
  unmasked : r.masks.isEmpty = true → k.phase = .idle
  quiet : w.thinking ≠ .closed → k.phase = .idle
  /-- While text is held, no reasoning is added and no block is closed. -/
  untouched : k.held ≠ [] → w.closeThinking = w ∧ ∀ text, w.pushReasoning text = w

/-- Sending leaves the scanner, the block of reasoning and the rules as they are. -/
structure SameScan (v w : Writer) : Prop where
  scan : v.scan = w.scan
  thinking : v.thinking = w.thinking
  rules : v.rules = w.rules

section Sending

variable {u v w : Writer} {d : Delivery} {next : Writer → Delivery}

theorem SameScan.trans (second : v.SameScan u) (first : u.SameScan w) : v.SameScan w :=
  ⟨second.scan.trans first.scan, second.thinking.trans first.thinking,
    second.rules.trans first.rules⟩

theorem send_sameScan (w : Writer) (i : Increment) : (w.send i).writer.SameScan w := by
  unfold send
  dsimp only
  split <;> exact ⟨rfl, rfl, rfl⟩

theorem sendBuffer_sameScan (w : Writer) : w.sendBuffer.writer.SameScan w := by
  unfold sendBuffer
  split
  case isTrue => exact ⟨rfl, rfl, rfl⟩
  case isFalse => exact (send_sameScan _ _).trans ⟨rfl, rfl, rfl⟩

theorem sendPending_sameScan (w : Writer) : w.sendPending.writer.SameScan w := by
  unfold sendPending
  split
  case h_1 => exact (send_sameScan _ _).trans ⟨rfl, rfl, rfl⟩
  case h_2 => exact ⟨rfl, rfl, rfl⟩

theorem flush_sameScan (w : Writer) : w.flush.writer.SameScan w := by
  unfold flush
  split
  case isTrue => exact w.sendBuffer_sameScan
  case isFalse => exact ⟨rfl, rfl, rfl⟩

theorem andThen_sameScan (first : d.writer.SameScan w)
    (second : ∀ v, (next v).writer.SameScan v) : (d.andThen next).writer.SameScan w := by
  unfold Delivery.andThen
  split
  case isTrue => exact (second d.writer).trans first
  case isFalse => exact first

/-- A drained writer holds nothing back, and what follows the draining leaves it so. -/
theorem drain_andThen_sameScan (second : ∀ v, (next v).writer.SameScan v) :
    (w.drain.andThen next).writer.scan = .idle ∧ (w.drain.andThen next).writer.rules = w.rules := by
  have drained : w.drain.writer.SameScan { w.closeThinking with
      buffer := w.closeThinking.buffer ++ w.closeThinking.scan.held, scan := .idle } :=
    sendBuffer_sameScan _
  have whole := andThen_sameScan drained second
  exact ⟨whole.scan, whole.rules.trans w.closeThinking_rules⟩

theorem finish_scan (w : Writer) (reason : String) :
    (w.finish reason).writer.scan = .idle ∧ (w.finish reason).writer.rules = w.rules :=
  drain_andThen_sameScan fun v =>
    andThen_sameScan (w := v) ((send_sameScan _ _).trans ⟨rfl, rfl, rfl⟩) sendPending_sameScan

theorem close_scan (w : Writer) (terminal : Increment) :
    (w.close terminal).writer.scan = .idle ∧ (w.close terminal).writer.rules = w.rules :=
  drain_andThen_sameScan fun v =>
    andThen_sameScan v.sendPending_sameScan fun u => u.send_sameScan terminal

theorem usage_scan (w : Writer) (finished : w.finished = true) (model : String)
    (usage : TokenUsage) :
    (w.usage model usage).writer.scan = .idle ∧ (w.usage model usage).writer.rules = w.rules := by
  rw [Writer.usage, if_pos finished]
  exact drain_andThen_sameScan fun v => v.send_sameScan _

end Sending

/-- A writer that keeps to its rules, with the scanner that holds what it holds. -/
structure Serves (r : MaskRules) (w : Writer) (k : Scanner) : Prop where
  rules : w.rules = r
  sound : w.Sound
  scan : k = .ofState w.scan

namespace Serves

variable {r : MaskRules} {v w : Writer} {k j : Scanner}

theorem drained (idle : v.scan = .idle) (rules : v.rules = r) : Serves r v .fresh :=
  ⟨rules, ⟨by rw [idle]; trivial, fun _ => idle⟩, by rw [idle]; rfl⟩

theorem of_sameScan (serves : Serves r w k) (same : v.SameScan w) : Serves r v k := by
  obtain ⟨rules, ⟨holds, quiet⟩, scan⟩ := serves
  refine ⟨same.rules.trans rules, ⟨?_, ?_⟩, ?_⟩
  · rwa [same.scan, same.rules]
  · rwa [same.scan, same.thinking]
  · rwa [same.scan]

theorem pushReasoning (serves : Serves r w k) (text : String) :
    Serves r (w.pushReasoning text) k := by
  have outlet := w.after_sameOutlet (.reasoning text)
  have scan : (w.pushReasoning text).scan = w.scan := by
    unfold Writer.pushReasoning
    split <;> rfl
  refine ⟨outlet.rules.trans serves.rules, after_sound serves.sound (.reasoning text), ?_⟩
  rw [scan]
  exact serves.scan

theorem pushContent (serves : Serves r w k) {text : String} {out : List Char}
    (pushes : k.Pushes r text.toList j out) :
    Serves r (w.pushContent text) j ∧
      (w.pushContent text).buffer = w.closeThinking.buffer ++ out := by
  obtain ⟨rfl, sound, rfl⟩ := serves
  have outlet := w.after_sameOutlet (.content text)
  obtain ⟨rfl, rfl⟩ := pushes.push_eq sound.holds
  refine ⟨⟨outlet.rules, after_sound sound (.content text), ?_⟩, ?_⟩ <;>
    simp [Writer.pushContent]

/-- What is held is what the rules allow, counted right. -/
theorem fits (serves : Serves r w k) : k.count = k.held.length ∧ k.count ≤ max 8 r.maxSpan := by
  obtain ⟨rfl, ⟨holds, -⟩, rfl⟩ := serves
  cases scan : w.scan with
  | idle => exact ⟨rfl, Nat.zero_le _⟩
  | suspect held =>
      rw [scan] at holds
      have short := holds.2.2.1.length_le
      rw [MaskRules.length_maskPrefix] at short
      exact ⟨rfl, Nat.le_trans short (Nat.le_max_left _ _)⟩
  | confirmed held =>
      rw [scan] at holds
      exact ⟨rfl, holds.2.2.2⟩

/-- Reasoning is over when something is held. -/
theorem closed_of_held (serves : Serves r w k) (held : k.held ≠ []) : w.thinking = .closed := by
  obtain ⟨-, ⟨-, quiet⟩, rfl⟩ := serves
  refine Decidable.byContradiction fun other => held ?_
  rw [quiet other]
  rfl

theorem orderly (serves : Serves r w k) : w.Orderly r k := by
  obtain ⟨count, bounded⟩ := serves.fits
  have closed := serves.closed_of_held
  obtain ⟨rfl, ⟨holds, quiet⟩, rfl⟩ := serves
  refine
    { scan := rfl
      count := count
      bounded := bounded
      quiet := fun thinking => by rw [quiet thinking]; rfl
      untouched := fun held => ?untouched
      idle := ?idle
      suspect := fun phase => ?suspect
      confirmed := fun phase => ?confirmed
      unmasked := fun none => ?unmasked }
  case untouched =>
    refine ⟨?_, fun text => ?_⟩
    · rw [closeThinking, closed held]
    · rw [Writer.pushReasoning, closed held]
  all_goals cases scan : w.scan <;> rw [scan] at holds
  case idle.idle => exact iff_of_true rfl rfl
  case idle.suspect => exact iff_of_false (by rintro ⟨⟩) holds.2.1
  case idle.confirmed held =>
    refine iff_of_false (by rintro ⟨⟩) fun none => ?_
    have none : held = [] := none
    have long := holds.2.1.length_le
    rw [none, MaskRules.length_maskPrefix] at long
    cases long
  case suspect.suspect => exact holds.2
  case confirmed.confirmed => exact ⟨holds.2.1, holds.2.2.1⟩
  case unmasked.idle => rfl
  case unmasked.suspect | unmasked.confirmed => exact absurd none (by simp [holds.1])
  all_goals
    rw [scan] at phase
    cases phase

end Serves

theorem Reaches.serves {message : String} {r : MaskRules} {w : Writer} {k : Scanner}
    (reaches : Reaches message r w k) : Serves r w k := by
  induction reaches with
  | new => exact ⟨rfl, .new message r, rfl⟩
  | reasoning _ text ih => exact ih.pushReasoning text
  | content _ text pushes ih => exact (ih.pushContent pushes).1
  | flush _ ih => exact ih.of_sameScan (flush_sameScan _)
  | @finish w k _ reason ih =>
      obtain ⟨idle, rules⟩ := w.finish_scan reason
      exact .drained idle (rules.trans ih.rules)
  | @usage w k _ model usage ih =>
      split
      case isTrue finished =>
        obtain ⟨idle, rules⟩ := w.usage_scan finished model usage
        exact .drained idle (rules.trans ih.rules)
      case isFalse unfinished =>
        rw [Writer.usage, if_neg unfinished]
        exact ih.of_sameScan ⟨rfl, rfl, rfl⟩
  | @close w k _ terminal ih =>
      obtain ⟨idle, rules⟩ := w.close_scan terminal
      exact .drained idle (rules.trans ih.rules)
  | detach _ ih => exact ih.of_sameScan ⟨rfl, rfl, rfl⟩

/-- In every state of a writer its scanner is as its phase says, and every text can be pushed: also
    one in which a beginning is given up and read again. -/
theorem reaches_orderly (message : String) (r : MaskRules) :
    (∀ w k, Reaches message r w k → Orderly r w k ∧ ∀ text, ∃ j out,
      k.Pushes r text.toList j out ∧ Reaches message r (w.pushContent text) j ∧
        (w.pushContent text).buffer = w.closeThinking.buffer ++ out) ∧
    ∀ (k : Scanner) (text : List Char), ∃ j out, k.Scans r text j out := by
  refine ⟨fun w k reaches => ⟨reaches.serves.orderly, fun text => ?_⟩, Scanner.exists_scans r⟩
  obtain ⟨j, out, pushes⟩ := Scanner.exists_pushes r k text.toList
  exact ⟨j, out, pushes, .content reaches text pushes, (reaches.serves.pushContent pushes).2⟩

/-- Two beginnings in a row are given up, the second one because no more than three characters may
    be waited for; a third one is held. -/
theorem reaches_orderly_narrow :
    let r : MaskRules := ⟨.ofEntries [("u1", "Alice")], 3, 20⟩
    let k : Scanner := ⟨.suspect, ['$'], 1⟩
    let w := ((Writer.new "m1" r).pushReasoning "why").pushContent "a$$hi$"
    Reaches "m1" r w k ∧ Orderly r w k ∧ w.buffer = "<think>why</think>a$$hi".toList ∧
      ∃ j out, k.Scans r "hidden[u1]".toList j out := by
  intro r k w
  have filled : r.masks.isEmpty = false := by decide
  have first : Scanner.GivesUp r ⟨.suspect, ['$'], 1⟩ '$' :=
    ⟨rfl, by decide, .inl (by decide)⟩
  have second : Scanner.GivesUp r ⟨.suspect, ['$', 'h'], 2⟩ 'i' :=
    ⟨rfl, by decide, .inr (by decide)⟩
  have opens : Scanner.Scans r .fresh ['$'] k [] := .takes (.opened rfl) .nil
  have plain : Scanner.Scans r .fresh ['h', 'i'] .fresh ['h', 'i'] :=
    .takes (.passed rfl (by decide)) (.takes (.passed rfl (by decide)) .nil)
  have pushes : Scanner.Pushes r .fresh "a$$hi$".toList k "a$$hi".toList :=
    .scans filled (.takes (.passed rfl (by decide)) (.takes (.opened rfl)
      (.givesUp first rfl opens (.takes (.grown rfl (by decide) (by decide) (by decide))
        (.givesUp second rfl plain opens)))))
  have reaches : Reaches "m1" r w k := .content (.reasoning .new "why") "a$$hi$" pushes
  obtain ⟨states, ends⟩ := reaches_orderly "m1" r
  exact ⟨reaches, (states w k reaches).1, by decide +kernel, ends k _⟩

end Writer

end NoteAssistant
