import NoteAssistant.Proofs.Reply.Progress

/-! # What every reply looks like from outside

Whatever happens while a reply is made, its receiver gets numbered increments of one
message. The last one says why the reply ended, and none before it does.
-/

namespace NoteAssistant

/-- What has been sent when a reply is at a stage: one last increment, and only at
    the end. -/
def Stage.Accounts : Stage → List Increment → Prop
  | ended e, is => ∃ body terminal, e.terminal? = some terminal ∧ is = body ++ [terminal]
      ∧ ∀ i ∈ body, i.isTerminal = false
  | _, is => ∀ i ∈ is, i.isTerminal = false

/-- An increment that may stand within a reply. -/
structure Increment.Inner (i : Increment) : Prop where
  unlast : i.isTerminal = false
  speaks : i ≠ .text ""

theorem Stage.accounts_of_busy {stage : Stage} (busy : ∀ e, stage ≠ .ended e)
    {is : List Increment} : stage.Accounts is ↔ ∀ i ∈ is, i.isTerminal = false := by
  cases stage with
  | ended e => exact absurd rfl (busy e)
  | watching | taking | closing => rfl

theorem Stage.Accounts.append {stage : Stage} {is js : List Increment}
    (so : stage.Accounts js) (busy : ∀ e, stage ≠ .ended e) (inner : ∀ i ∈ is, i.Inner) :
    stage.Accounts (js ++ is) := by
  rw [accounts_of_busy busy] at so ⊢
  intro i mem
  rcases List.mem_append.mp mem with old | new
  · exact so i old
  · exact (inner i new).unlast

namespace Writer

theorem inner_textIncrements (text : List Char) : ∀ i ∈ textIncrements text, i.Inner := by
  intro i mem
  unfold textIncrements at mem
  split at mem
  case isTrue => cases mem
  case isFalse filled =>
    obtain rfl := List.mem_singleton.mp mem
    refine ⟨rfl, fun empty => filled ?_⟩
    simpa using empty

theorem inner_heldUsage (w : Writer) : ∀ i ∈ w.heldUsage, i.Inner := by
  intro i mem
  unfold heldUsage at mem
  cases held : w.pendingUsage with
  | none => simp [held] at mem
  | some u =>
      obtain rfl : i = .usage u.1 u.2 := by simpa [held] using mem
      exact ⟨rfl, by simp⟩

theorem inner_told (w : Writer) (part : Token.Part) : ∀ i ∈ w.told part, i.Inner := by
  intro i mem
  cases part with
  | reasoning text | content text => cases mem
  | finish reason =>
      simp only [told, List.mem_append, List.mem_singleton] at mem
      rcases mem with text | rfl | usage
      · exact inner_textIncrements _ i text
      · exact ⟨rfl, by simp⟩
      · exact inner_heldUsage w i usage
  | usage model usage =>
      simp only [told] at mem
      split at mem
      case isFalse => cases mem
      case isTrue =>
        rcases List.mem_append.mp mem with text | last
        · exact inner_textIncrements _ i text
        · obtain rfl := List.mem_singleton.mp last
          exact ⟨rfl, by simp⟩

end Writer

theorem Ending.speaks {e : Ending} {i : Increment} (last : e.terminal? = some i) :
    i ≠ .text "" := by
  cases e <;> simp [terminal?] at last <;> simp [← last]

theorem Ending.isTerminal {e : Ending} {i : Increment} (last : e.terminal? = some i) :
    i.isTerminal = true := by
  cases e <;> simp [terminal?] at last <;> simp [← last, Increment.isTerminal]

namespace Processor

theorem Moves.accounts {p q : Processor} {s : Signal} {is js : List Increment}
    (move : Moves p s q is) (h : p.Sound) (so : p.stage.Accounts js) :
    q.stage.Accounts (js ++ is) := by
  cases move with
  | flushed busy idle => exact so.append busy (Writer.inner_textIncrements _)
  | deferred | arrived | cancelled | expired | looked | rested => simpa using so
  | took stage t found =>
      rw [stage] at so
      simpa [Stage.Accounts] using so
  | stopped stage e found =>
      rw [stage] at so
      simpa [Stage.Accounts] using so
  | completed stage | reported text stage =>
      rw [stage] at so
      simpa [Stage.Accounts] using so
  | applied part parts error stage =>
      rw [stage] at so
      have next : (Stage.taking parts error).Accounts js := so
      exact next.append (by simp) (Writer.inner_told _ part)
  | closed e terminal stage last =>
      rw [stage] at so
      refine ⟨js ++ (Writer.textIncrements p.writer.gathered ++ p.writer.heldUsage), terminal,
        last, by simp, ?_⟩
      intro i mem
      simp only [List.mem_append] at mem
      rcases mem with old | text | usage
      · exact so i old
      · exact (Writer.inner_textIncrements _ i text).unlast
      · exact (Writer.inner_heldUsage _ i usage).unlast
  | abandoned e stage silent =>
      cases e with
      | detached => exact absurd stage h.received
      | done | failed | cancelled => simp [Ending.terminal?] at silent

theorem Runs.accounts {p q : Processor} {signals : List Signal} {is js : List Increment}
    (runs : Runs p signals q is) (h : p.Sound) (so : p.stage.Accounts js) :
    q.stage.Accounts (js ++ is) := by
  induction runs generalizing js with
  | nil p => simpa using so
  | cons move _ ih =>
      rw [← List.append_assoc]
      exact ih (move.sound h) (move.accounts h so)

theorem Moves.speaks {p q : Processor} {s : Signal} {is : List Increment}
    (move : Moves p s q is) : .text "" ∉ is := by
  intro mem
  cases move with
  | flushed => exact (Writer.inner_textIncrements _ _ mem).speaks rfl
  | applied part => exact (Writer.inner_told _ part _ mem).speaks rfl
  | closed e terminal stage last =>
      simp only [List.mem_append, List.mem_singleton] at mem
      rcases mem with text | usage | rfl
      · exact (Writer.inner_textIncrements _ _ text).speaks rfl
      · exact (Writer.inner_heldUsage _ _ usage).speaks rfl
      · exact Ending.speaks last rfl
  | deferred | arrived | cancelled | expired | looked | took | stopped | completed | reported
  | abandoned | rested => cases mem

/-- A reply has sent its last increment if it is over, and none before. -/
theorem accounts_run (message : String) (rules : MaskRules) (limit : Duration)
    {signals : List Signal} (kept : .detach ∉ signals) :
    ((start message rules limit).run signals).1.stage.Accounts
      (increments ((start message rules limit).run signals).2) := by
  have sound := Sound.start message rules limit
  obtain ⟨is, runs, sent⟩ := run_runs sound.there kept
  have nothing : (start message rules limit).stage.Accounts [] := by
    simp [start, Stage.Accounts]
  rw [sent, increments_numbered]
  exact runs.accounts sound nothing

theorem Runs.speaks {p q : Processor} {signals : List Signal} {is : List Increment}
    (runs : Runs p signals q is) : .text "" ∉ is := by
  induction runs with
  | nil p => simp
  | cons move _ ih => simp [move.speaks, ih]

/-- What holds of the increments that some signals bring about, and of the tokens that are
    taken. -/
structure Envelope (p : Processor) (signals : List Signal) : Prop where
  numbers : (p.run signals).2.map (·.sequence) = List.range (p.run signals).2.length
  message : ∀ c ∈ (p.run signals).2, c.message = p.writer.message
  speaks : .text "" ∉ increments (p.run signals).2
  lasting : (∀ e, (p.run signals).1.stage ≠ .ended e) →
    ∀ i ∈ increments (p.run signals).2, i.isTerminal = false
  /-- A reply that is over ended for the first cause, with the increment that this one calls
      for. -/
  last : ∀ e, (p.run signals).1.stage = .ended e →
    ∃ body terminal, FirstCause p signals e terminal
      ∧ increments (p.run signals).2 = body ++ [terminal] ∧ terminal.isTerminal = true
      ∧ ∀ i ∈ body, i.isTerminal = false
  /-- From a cancellation or the time limit on no token is taken. -/
  untouched : ∀ before after, signals = before ++ after →
    .cancel ∈ before ∨ .expire ∈ before → p.taken signals = p.taken before
  /-- There is an end to a reply that is cancelled, out of time, or at the end of its
      stream, as soon as the processor has worked often enough. -/
  ends : (∃ s ∈ signals, s.isDecisive = true) →
    ∃ n, ∀ more, .detach ∉ more → n ≤ more.count .work →
      ∃ e, (p.run (signals ++ more)).1.stage = .ended e

/-- Whatever happens while a reply is made and in whatever order, a receiver who stays
    gets numbered increments, of which the last one and no other tells the end. -/
theorem envelope_run (message : String) (rules : MaskRules) (limit : Duration)
    (signals : List Signal) (kept : .detach ∉ signals) :
    (start message rules limit).Envelope signals := by
  have sound := Sound.start message rules limit
  have fresh := Fresh.start message rules limit
  obtain ⟨is, runs, sent⟩ := run_runs sound.there kept
  have accounts := accounts_run message rules limit kept
  constructor
  case numbers =>
    rw [sent, map_sequence_numbered, ← length_increments, increments_numbered, start,
      List.range_eq_range']
    rfl
  case message =>
    intro c mem
    rw [sent] at mem
    exact message_of_mem_numbered mem
  case speaks =>
    rw [sent, increments_numbered]
    exact runs.speaks
  case lasting =>
    intro busy
    exact (Stage.accounts_of_busy busy).mp accounts
  case last =>
    intro e ended
    rw [ended] at accounts
    have known : ((start message rules limit).run signals).1.stage.ending? = some e := by
      rw [ended]
      rfl
    obtain ⟨body, terminal, last, whole, inner⟩ := accounts
    obtain ⟨i, first⟩ := (fresh.ending_iff kept e).mp known
    obtain rfl : i = terminal := Option.some.inj (first.terminal.symm.trans last)
    exact ⟨body, i, first, whole, Ending.isTerminal last, inner⟩
  case untouched =>
    rintro before after rfl stopped
    exact taken_of_cause _ stopped
  case ends => exact run_ended sound.there kept

/-- Each of the five causes, after the same beginning: a cancellation that comes with the time
    limit while a token waits, the time limit, a broken stream, an error that a token reports, and
    the end of the stream. -/
theorem envelope_run_causes :
    let r : MaskRules := ⟨.ofEntries [("u1", "Alice")], 10, 128⟩
    let said : List Signal :=
      [.arrive (.token (.ofContent "to $hidden[u1] and $hid")), .work, .work, .work]
    let more : Signal := .arrive (.token (.ofContent "den"))
    let tells (signals : List Signal) (terminal : Increment) : Prop :=
      .detach ∉ signals
        ∧ increments ((start "m" r (.ofMillis 5)).run signals).2 =
          [.text "to Alice and $hid", terminal]
        ∧ (start "m" r (.ofMillis 5)).Envelope signals
    tells (said ++ [more, .cancel, .expire, .work, .tick, .work]) .cancelled
      ∧ tells (said ++ [more, .expire, .work, .work]) (.error "operation timed out after 5ms")
      ∧ tells (said ++ [.arrive (.broken (.provider "connection lost")), .work, .work])
        (.error "provider error: connection lost")
      ∧ tells (said ++ [.arrive (.token { Token.empty with error := some "overloaded" }), .work,
        .work, .work, more]) (.error "overloaded")
      ∧ tells (said ++ [.arrive .ended, .work, .tick, .work, .expire]) .done := by
  intro r said more tells
  have tell {signals : List Signal} {terminal : Increment} (kept : .detach ∉ signals)
      (delivered : increments ((start "m" r (.ofMillis 5)).run signals).2 =
        [.text "to Alice and $hid", terminal]) : tells signals terminal :=
    ⟨kept, delivered, envelope_run "m" r (.ofMillis 5) signals kept⟩
  exact ⟨tell (by decide) (by decide +kernel), tell (by decide) (by decide +kernel),
    tell (by decide) (by decide +kernel), tell (by decide) (by decide +kernel),
    tell (by decide) (by decide +kernel)⟩

end Processor

end NoteAssistant
