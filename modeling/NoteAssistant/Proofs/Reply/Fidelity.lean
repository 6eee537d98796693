import NoteAssistant.Proofs.Reply.Balance

/-! # The text of a reply is delivered

At every moment the text that a writer has sent, together with what it still owes
(`Writer.owed`), is the text of the reply. A flush moves text from one part to the other
and a part of a token is owed before it is taken, so the sum never changes; at the end
nothing is owed any more.
-/

namespace NoteAssistant

open Reference

namespace Piece

section Parts

variable (finished : Bool) (rest : List Token.Part)

theorem ofParts_text {part : String → Token.Part} {piece : List Char → Piece}
    (told : ∀ text, ofParts finished (part text :: rest) =
      piece text.toList :: ofParts finished rest) (text : Option String) :
    ofParts finished (((Token.present text).map part).toList ++ rest) =
      ofText piece text ++ ofParts finished rest := by
  cases text with
  | none => rfl
  | some text =>
      by_cases empty : text = "" <;>
        simp [Token.present, Option.filter_some, ofText, told, empty]

theorem ofParts_finish (reason : Option String) :
    ofParts finished ((reason.map .finish).toList ++ rest) =
      (if reason.isSome then [cut] else []) ++ ofParts (finished || reason.isSome) rest := by
  cases reason <;> simp [ofParts]

theorem ofParts_usage (model : String) (usage : Option TokenUsage) :
    ofParts finished ((usage.map (.usage model)).toList ++ rest) =
      (if finished && usage.isSome then [cut] else []) ++ ofParts finished rest := by
  cases usage <;> cases finished <;> simp [ofParts]

end Parts

/-- The pieces of tokens are those of the parts in which they are taken. -/
theorem ofTokens_eq (finished : Bool) (tokens : List Token) :
    ofTokens finished tokens = ofParts finished (tokens.flatMap Token.parts) := by
  induction tokens generalizing finished with
  | nil => rfl
  | cons t tokens ih =>
      simp only [ofTokens, List.flatMap_cons, Token.parts, List.append_assoc]
      rw [ofParts_text _ _ fun _ => rfl, ofParts_text _ _ fun _ => rfl, ofParts_finish,
        ofParts_usage, ih]

end Piece

namespace Reference

/-- What is still to come of the answer, when its last segment has been scanned so far
    that some text is held back. -/
def restOfAnswer (r : MaskRules) (held : List Char) (ps : List Piece) : List Char :=
  ((segments ps).modifyHead (held ++ ·)).flatMap r.resolve

theorem flatten_flatMap_units (r : MaskRules) (ss : List (List Char)) :
    (ss.flatMap r.units).flatten = ss.flatMap r.resolve := by
  induction ss with
  | nil => rfl
  | cons s ss ih => simp [ih]

theorem flatten_units (r : MaskRules) (ps : List Piece) :
    (units r ps).flatten = block ps ++ answer r ps := by
  rw [units, List.flatten_append, flatten_letters, flatten_flatMap_units, answer]

@[simp] theorem restOfAnswer_nil_held (r : MaskRules) (ps : List Piece) :
    restOfAnswer r [] ps = answer r ps :=
  congrArg (List.flatMap r.resolve) (segmentsFrom_nil_held ps)

end Reference

namespace Writer

/-- The text that a writer has yet to send, when it is still to take these parts. -/
def owed (w : Writer) (parts : List Token.Part) : List Char :=
  let ps := Piece.ofParts w.finished parts
  w.buffer ++ restOfBlock w.thinking ps ++ restOfAnswer w.rules w.scan.held ps

theorem flatten_owedUnits {w : Writer} {us : List (List Char)} (same : us.flatten = w.buffer)
    (parts : List Token.Part) : (w.owedUnits us parts).flatten = w.owed parts := by
  dsimp only [owedUnits, owed]
  rw [List.flatten_append, List.flatten_append, same, flatten_letters, flatten_flatMap_units,
    List.append_assoc]
  rfl

end Writer

namespace Processor

/-- The text that a reply has yet to send. -/
def owed (p : Processor) (parts : List Token.Part) : List Char :=
  match p.stage with
  | .ended _ => []
  | _ => p.writer.owed parts

theorem flatten_owedUnits {p : Processor} {us : List (List Char)} (same : us.flatten = p.unsent)
    (parts : List Token.Part) : (p.owedUnits us parts).flatten = p.owed parts := by
  cases stage : p.stage with
  | ended e => simpa [owedUnits, owed, unsent, stage] using same
  | watching | taking | closing =>
      simp only [owedUnits, owed, unsent, stage] at same ⊢
      exact Writer.flatten_owedUnits same parts

/-- What has been sent and what is owed at the end make up what was owed at the
    beginning. -/
theorem Runs.balance {p q : Processor} {signals : List Signal} {is : List Increment}
    (runs : Runs p signals q is) (roomy : p.writer.rules.Roomy) (h : p.Sound) :
    written is ++ q.owed [] = p.owed (p.applied signals) := by
  obtain ⟨vs, gathered, sent⟩ := runs.delivers roomy h (flatten_letters p.unsent)
  have whole := (sent [] fun _ => rfl).written_append
  rwa [flatten_owedUnits gathered, flatten_owedUnits (flatten_letters _), List.append_nil] at whole

theorem Moves.parts {p q : Processor} {s : Signal} {is : List Increment}
    (move : Moves p s q is) :
    p.pending ++ (p.takes s).toList.flatMap Token.parts = (p.applies s).toList ++ q.pending := by
  cases move with
  | flushed | deferred | arrived | cancelled | expired => simp [pending, takes, applies]
  | looked stage found | took stage _ found | stopped stage _ found =>
      simp [pending, takes, applies, stage, found]
  | applied _ _ _ stage | completed stage | reported _ stage | closed _ _ stage
  | abandoned _ stage | rested _ stage => simp [pending, takes, applies, stage]

theorem Runs.parts {p q : Processor} {signals : List Signal} {is : List Increment}
    (runs : Runs p signals q is) :
    p.pending ++ (p.taken signals).flatMap Token.parts = p.applied signals ++ q.pending := by
  induction runs with
  | nil p => simp [taken, applied]
  | cons move _ ih =>
      simp only [taken, applied, List.flatMap_append, List.append_assoc]
      rw [← List.append_assoc, move.parts, List.append_assoc, ih]

/-- Whatever happens while a reply is made and in whatever order, a receiver who stays
    reads the text of the tokens that were taken, once the reply is over. These are the first ones
    that the stream has yielded. -/
theorem written_run (message : String) (r : MaskRules) (limit : Duration)
    (signals : List Signal) (e : Ending) (wide : 8 ≤ r.lookahead)
    (deep : r.lookahead < r.maxSpan) (kept : .detach ∉ signals)
    (ended : ((start message r limit).run signals).1.stage = .ended e) :
    ((start message r limit).taken signals).map .token <+: arrivals signals ∧
      written (increments ((start message r limit).run signals).2)
        = Reference.text r ((start message r limit).taken signals) := by
  obtain ⟨is, runs, sent⟩ := run_runs (p := start message r limit) rfl kept
  have balance := runs.balance ⟨wide, deep⟩ (.start message r limit)
  have parts := runs.parts
  have arrived : arrivals signals = _ := runs.arrivals
  have settled : ((start message r limit).run signals).1.owed [] = [] := by
    rw [owed, ended]
  have complete : ((start message r limit).run signals).1.pending = [] := by
    rw [pending, ended]
  rw [complete, List.append_nil] at parts
  rw [settled, List.append_nil, ← parts] at balance
  refine ⟨⟨_, arrived.symm⟩, ?_⟩
  rw [sent, increments_numbered, balance]
  simp [start, pending, owed, Writer.owed, Writer.new, restOfBlock, MaskState.held,
    Reference.text, Piece.ofTokens_eq]

/-- A block of reasoning with a tick in it, a placeholder that arrives in two tokens with
    a tick between them, another one that a finish cuts in two, and an error that the last token
    reports. -/
theorem written_run_overloaded :
    let r : MaskRules := ⟨.ofEntries [("u1", "Alice")], 10, 128⟩
    let tokens : List Token :=
      [{ Token.empty with reasoning := some "a\nb", content := some "" },
        .ofContent "ask $hid",
        { Token.ofContent "den[u1] now, $hid" with finishReason := some "stop" },
        { Token.ofContent "den[u1]" with reasoning := some "c", error := some "overloaded" }]
    let signals : List Signal :=
      tokens.flatMap (fun t => [.arrive (.token t), .work, .work, .tick, .work, .work])
        ++ [.arrive .ended, .tick, .work, .work]
    let text := "<think>a<br/>b</think>ask Alice now, $hidden[u1]".toList
    8 ≤ r.lookahead ∧ r.lookahead < r.maxSpan ∧ .detach ∉ signals
      ∧ ((start "m" r (.ofMillis 5)).run signals).1.stage = .ended (.failed "overloaded")
      ∧ (start "m" r (.ofMillis 5)).taken signals = tokens
      ∧ Reference.text r tokens = text
      ∧ written (increments ((start "m" r (.ofMillis 5)).run signals).2) = text := by
  intro r tokens signals text
  have kept : .detach ∉ signals := by decide
  have ended :
      ((start "m" r (.ofMillis 5)).run signals).1.stage = .ended (.failed "overloaded") := by
    decide +kernel
  have taken : (start "m" r (.ofMillis 5)).taken signals = tokens := by decide +kernel
  have reference : Reference.text r tokens = text := by decide +kernel
  obtain ⟨-, delivered⟩ :=
    written_run "m" r (.ofMillis 5) signals _ (by decide) (by decide) kept ended
  rw [taken, reference] at delivered
  exact ⟨by decide, by decide, kept, ended, taken, reference, delivered⟩

end Processor

end NoteAssistant
